import Ps2Client.Ps2link.Console
import Mathlib.Logic.Relation

/-!
# The main loop and the threads beside it

`ps2link_mainloop` waits for the marker, a lost connection or the idle timeout, while the console
thread scans packets and the request thread serves requests. What the threads share is protected by
one lock, so a section between lock and unlock is one step, and the steps of the three threads
interleave in any order. The clock is arbitrary.
-/

namespace Ps2link

open CMemory

def EXIT_OK : Int := 0
def EXIT_CONNLOST : Int := 74
def EXIT_TIMEOUT : Int := 124

/-- Where the main loop is. -/
inductive MainPc where
  /-- At the entry of `ps2link_mainloop`. -/
  | entry
  /-- At the top of the loop. -/
  | top
  /-- After the first section, which has read the time of the last activity and the lost flag. -/
  | checked (activity : Int) (lost : Bool)
  /-- Before the section of the branch of a lost connection. -/
  | grace
  /-- Before the section of the branch of the idle timeout. -/
  | idle
  | done (status : Int)
  deriving DecidableEq, Repr

/-- Where the console thread is. -/
inductive ConsolePc where
  | waiting
  | scanned
  deriving DecidableEq, Repr

/-- Where the request thread is. -/
inductive RequestPc where
  | serving
  | ended
  deriving DecidableEq, Repr

structure System where
  console : Console
  activity : Int
  lost : Bool
  mainPc : MainPc
  consolePc : ConsolePc
  requestPc : RequestPc
  /-- The packets that have been scanned, in order. -/
  packets : List (List Byte)
  deriving DecidableEq, Repr

def System.initial (activity : Int) : System :=
  ⟨.initial, activity, false, .entry, .waiting, .serving, []⟩

/-- `ps2link_marker_status & 0xff` -/
def exitStatus (status : Int) : Int := (BitVec.ofInt 32 status &&& 0xff).toInt

variable (marker : Option (List Byte)) (timeout : Int)

/-- The check of an unterminated last line. -/
def checkLastLine (c : Console) : Console :=
  match marker with
  | some marker => if c.seen = false ∧ 0 < c.length then checkLine marker c else c
  | none => c

/-- The next step of the main loop, at the time `now`. -/
def mainStep (now : Int) (s : System) : System :=
  match s.mainPc with
  | .entry =>
    if timeout = 0 then { s with mainPc := .done EXIT_OK }
    else { s with activity := now, mainPc := .top }
  | .top =>
    if s.console.seen then { s with mainPc := .done (exitStatus s.console.status) }
    else { s with mainPc := .checked s.activity s.lost }
  | .checked activity lost =>
    if lost then { s with mainPc := .grace }
    else if 0 < timeout ∧ timeout * 1000 ≤ now - activity then { s with mainPc := .idle }
    else { s with mainPc := .top }
  | .grace =>
    let c := checkLastLine marker s.console
    { s with
      console := c
      mainPc := .done (if c.seen then exitStatus c.status else EXIT_CONNLOST) }
  | .idle =>
    let c := checkLastLine marker s.console
    { s with
      console := c
      mainPc := .done (if c.seen then exitStatus c.status
        else if marker ≠ none then EXIT_TIMEOUT else EXIT_OK) }
  | .done _ => s

/-- A step of one of the three threads. -/
inductive Step : System → System → Prop where
  | main (now : Int) (s : System) : Step s (mainStep marker timeout now s)
  /-- The console thread scans a packet. -/
  | scan (packet : List Byte) (s : System) (hpc : s.consolePc = .waiting) :
    Step s { s with console := scanConsole marker packet s.console, consolePc := .scanned,
                    packets := s.packets ++ [packet] }
  /-- The console thread records activity. -/
  | consoleActivity (now : Int) (s : System) (hpc : s.consolePc = .scanned) :
    Step s { s with activity := now, consolePc := .waiting }
  /-- The request thread has served a request and records activity. -/
  | requestActivity (now : Int) (s : System) (hpc : s.requestPc = .serving) :
    Step s { s with activity := now }
  /-- The request thread sets the lost flag and ends. -/
  | lost (s : System) (hpc : s.requestPc = .serving) :
    Step s { s with lost := true, requestPc := .ended }

/-- A run of the three threads, in any interleaving. -/
abbrev Run : System → System → Prop := Relation.ReflTransGen (Step marker timeout)

/-! ## What the main loop is to return -/

/-- The lines that count in the last section of the main loop: the complete ones, and at the end of
the wait also an unterminated last line. -/
def countedLines (pc : MainPc) (packets : List (List Byte)) : List (List Byte) :=
  consoleLines packets.flatten ++
    if pc = .top ∨ openLine packets.flatten = [] then [] else [openLine packets.flatten]

/-- The status of the first line with the marker. -/
def firstStatus (lines : List (List Byte)) : Option Int :=
  marker.bind fun marker => lines.findSome? fun line => lineStatus marker (retained line)

/-- The last section of the main loop, from `s` to `s'`, gives the exit status `v`. -/
structure Returns (s s' : System) (v : Int) : Prop where
  seen : s'.console.seen = (firstStatus marker (countedLines s.mainPc s.packets)).isSome
  recorded : ∀ status, firstStatus marker (countedLines s.mainPc s.packets) = some status →
    v = exitStatus status
  /-- Without the marker, the loop had read the lost flag as set, or it was idle. -/
  noMarker : s'.console.seen = false →
    s.mainPc = .grace ∧ s.lost = true ∧ v = EXIT_CONNLOST ∨
    s.mainPc = .idle ∧ v = if marker = none then EXIT_OK else EXIT_TIMEOUT
  /-- No complete line with the marker is missed. -/
  complete : ∀ m, marker = some m → ∀ line ∈ consoleLines s.packets.flatten,
    m <:+: retained line → s'.console.seen = true

end Ps2link

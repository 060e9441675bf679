import Ps2Client.Ps2link.Mainloop

/-!
# The idle timeout

The main loop and the threads beside it, with a clock that never goes back and with the phases of a
request: the main loop reads the time of the last activity in one step and the clock in a later one,
and a request is recorded as activity when it has been served.
-/

namespace Ps2link

open CMemory

/-- Where the request thread is with a request. -/
inductive RequestPhase where
  | waiting
  /-- The header has been received, the rest of the packet not yet. -/
  | receiving
  /-- The handler receives the data of a `write`, or makes host calls. -/
  | serving
  | responding
  /-- The handler has returned. -/
  | served
  deriving DecidableEq, Repr

/-- A request is being served. -/
def RequestPhase.Busy (p : RequestPhase) : Prop := p = .receiving ∨ p = .serving ∨ p = .responding

instance : DecidablePred RequestPhase.Busy := fun p =>
  inferInstanceAs (Decidable (p = .receiving ∨ p = .serving ∨ p = .responding))

/-- The steps of the request thread that only it can see. A handler may return without a response. -/
inductive PhaseStep : RequestPhase → RequestPhase → Prop where
  | header : PhaseStep .waiting .receiving
  | body : PhaseStep .receiving .serving
  | respond : PhaseStep .serving .responding
  | return : PhaseStep .serving .served
  | responded : PhaseStep .responding .served

/-- What there was when the main loop left by the idle timeout: the clock it read, the activity that
had been recorded, and the request thread. -/
structure Departure where
  time : Int
  recorded : List Int
  phase : RequestPhase
  deriving DecidableEq, Repr

structure Timed where
  system : System
  clock : Int
  /-- The packet that the console thread has received and not scanned yet. -/
  packet : Option (List Byte)
  phase : RequestPhase
  /-- The times at which console output and requests were recorded as activity. -/
  recorded : List Int
  left : Option Departure
  deriving DecidableEq, Repr

/-- The process after `ps2link_connect`. -/
def Timed.initial (clock : Int) : Timed :=
  ⟨.initial clock, clock, none, .waiting, [], none⟩

variable (marker : Option (List Byte)) (timeout : Int)

/-- The main loop finds the timeout passed. -/
def Timed.leaves (s : Timed) : Bool :=
  match s.system.mainPc with
  | .checked activity false => 0 < timeout ∧ timeout * 1000 ≤ s.clock - activity
  | _ => false

def Timed.departure (s : Timed) : Departure := ⟨s.clock, s.recorded, s.phase⟩

/-- The next step of the main loop. -/
def Timed.main (s : Timed) : Timed :=
  { s with
    system := mainStep marker timeout s.clock s.system
    left := if s.leaves timeout then some s.departure else s.left }

/-- A step of one of the three threads, or of the clock. -/
inductive TimedStep : Timed → Timed → Prop where
  | tick (now : Int) (s : Timed) (hnow : s.clock ≤ now) : TimedStep s { s with clock := now }
  | main (s : Timed) : TimedStep s (s.main marker timeout)
  | receive (packet : List Byte) (s : Timed) (hpc : s.system.consolePc = .waiting)
    (hpacket : s.packet = none) : TimedStep s { s with packet := some packet }
  | scan (packet : List Byte) (s : Timed) (hpc : s.system.consolePc = .waiting)
    (hpacket : s.packet = some packet) :
    TimedStep s { s with
      system := { s.system with
        console := scanConsole marker packet s.system.console
        consolePc := .scanned
        packets := s.system.packets ++ [packet] }
      packet := none }
  | consoleActivity (s : Timed) (hpc : s.system.consolePc = .scanned) :
    TimedStep s { s with
      system := { s.system with activity := s.clock, consolePc := .waiting }
      recorded := s.recorded ++ [s.clock] }
  | request (phase : RequestPhase) (s : Timed) (hpc : s.system.requestPc = .serving)
    (hphase : PhaseStep s.phase phase) : TimedStep s { s with phase := phase }
  | requestActivity (s : Timed) (hpc : s.system.requestPc = .serving) (hphase : s.phase = .served) :
    TimedStep s { s with
      system := { s.system with activity := s.clock }
      recorded := s.recorded ++ [s.clock]
      phase := .waiting }
  /-- The header or the rest of a packet does not come, or its length is invalid. -/
  | lost (s : Timed) (hpc : s.system.requestPc = .serving)
    (hphase : s.phase = .waiting ∨ s.phase = .receiving) :
    TimedStep s { s with
      system := { s.system with lost := true, requestPc := .ended }
      phase := .waiting }

abbrev TimedRun : Timed → Timed → Prop := Relation.ReflTransGen (TimedStep marker timeout)

/-- Nothing was recorded as activity during the timeout, and no request is being served. -/
def Departure.Idle (d : Departure) : Prop :=
  (∀ a ∈ d.recorded, a ≤ d.time - 1000 * timeout) ∧ ¬ d.phase.Busy

/-- What a step does for the idle timeout to find the client idle. -/
structure Timed.Timely (s s' : Timed) : Prop where
  /-- No activity is recorded between the main loop's read of the time of the last activity and its
  comparison with the clock. -/
  recorded : s'.recorded ≠ s.recorded → ∀ activity lost, s.system.mainPc ≠ .checked activity lost
  /-- A header comes in before the timeout has passed since the last activity. -/
  header : ¬ s.phase.Busy → s'.phase.Busy → s.clock - s.system.activity < timeout * 1000
  /-- While a request is served, the timeout does not pass since the last activity. -/
  served : s.phase.Busy → s'.clock ≠ s.clock → s'.clock - s.system.activity < timeout * 1000

/-- A run in which every step is timely. -/
abbrev TimelyRun : Timed → Timed → Prop :=
  Relation.ReflTransGen fun s s' => TimedStep marker timeout s s' ∧ s.Timely timeout s'

end Ps2link

import Ps2Client.CMemory.CString

/-!
# The console and its marker

`ps2link_check_line` and `ps2link_scan_console`, which look for the marker in the console output
line by line, and what the line buffer keeps of a line.
-/

namespace Ps2link

open CMemory

def LF : Byte := 0x0A
def CR : Byte := 0x0D

/-- `status=` -/
def STATUS : List Byte := ['s', 't', 'a', 't', 'u', 's', '='].map ascii

/-- The variables of the console scanner. -/
structure Console where
  /-- `ps2link_line`, 4096 bytes. -/
  line : List Byte
  length : Nat
  seen : Bool
  status : Int
  deriving DecidableEq, Repr

def Console.initial : Console := ⟨List.replicate 4096 0, 0, false, 0⟩

/-- The number after `status=`, if there is one, in a line from its marker on. -/
def foundStatus (found : List Byte) : Int :=
  match strstr found STATUS with
  | some status => toInt32 (strtol (status.drop 7))
  | none => 0

/-- `ps2link_check_line`. -/
def checkLine (marker : List Byte) (c : Console) : Console :=
  let c := { c with line := poke c.line c.length [0] }
  if c.seen then c else
    match strstr (cstr c.line) marker with
    | none => c
    | some found => { c with status := foundStatus found, seen := true }

/-- The guard for a very long line, which keeps the last 256 bytes of a full buffer. -/
def makeRoom (c : Console) : Console :=
  if c.length = 4095 then
    { c with line := poke c.line 0 (peek c.line (c.length - 256) 256), length := 256 }
  else c

/-- The body of the loop of `ps2link_scan_console`. -/
def scanByte (marker : List Byte) (c : Console) (b : Byte) : Console :=
  if b = LF then { checkLine marker c with length := 0 } else
  if b = CR ∨ b = 0 then c else
    let c := makeRoom c
    { c with line := poke c.line c.length [b], length := c.length + 1 }

/-- `ps2link_scan_console`. There is nothing to do without a marker. -/
def scanConsole (marker : Option (List Byte)) (buffer : List Byte) (c : Console) : Console :=
  match marker with
  | none => c
  | some marker => buffer.foldl (scanByte marker) c

/-- The console after a sequence of packets. -/
def scanPackets (marker : Option (List Byte)) (packets : List (List Byte)) (c : Console) : Console :=
  packets.foldl (fun c packet => scanConsole marker packet c) c

/-! ## Lines of the stream -/

/-- The bytes of the stream that lines are made of. -/
def visible (stream : List Byte) : List Byte := stream.filter fun b => b ≠ CR ∧ b ≠ 0

/-- The lines of the stream that a newline ends. -/
def consoleLines (stream : List Byte) : List (List Byte) := ((visible stream).splitOn LF).dropLast

/-- What comes after the last newline. -/
def openLine (stream : List Byte) : List Byte := ((visible stream).splitOn LF).getLastD []

/-- How many bytes of a line of `n` bytes are in the buffer. -/
def retainedLength (n : Nat) : Nat := if n ≤ 4095 then n else 257 + (n - 4096) % 3839

/-- What the buffer keeps of a line: all of it, or the end of a line that is too long. -/
def retained (line : List Byte) : List Byte := line.drop (line.length - retainedLength line.length)

/-- The status that a line with the marker gives. -/
def lineStatus (marker line : List Byte) : Option Int := (strstr line marker).map foundStatus

/-! ## The line buffer -/

/-- The buffer in the middle of the line `line`: it holds the whole line, or the end of one that is
too long, and the search that ends the line stays inside the buffer, finds a marker near the end of
the line, and finds none that is not there. -/
structure LineKept (marker line : List Byte) (c : Console) : Prop where
  length : c.length ≤ 4095
  /-- There is room for the null that `ps2link_check_line` writes. -/
  terminator : c.length < c.line.length
  suffix : c.line.take c.length <:+ line
  whole : line.length ≤ 4095 → c.line.take c.length = line
  long : 4095 < line.length → 257 ≤ c.length
  /-- A newline does what the check does. -/
  newline : (scanByte marker c LF).seen = (checkLine marker c).seen
  sound : (checkLine marker c).seen = true → c.seen = true ∨ marker <:+: line
  complete : marker <:+: line.drop (line.length - 257) → (checkLine marker c).seen = true

end Ps2link

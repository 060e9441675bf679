import Ps2Client.Ps2link.Responses
import Ps2Client.Ps2netfs.Protocol
import Ps2Client.Wire.Commands

/-!
# Packets and uninitialised memory

Every function that sends a packet builds it in a local variable that is not initialised. A byte of
the variable that no assignment covers is sent as it was before.
-/

namespace Wire

open CMemory Network Ps2link

/-! ## Responses of ps2link -/

/-- A call of a response function with its arguments. -/
inductive Response where
  | «open» (result : Int)
  | close (result : Int)
  | read (result size : Int)
  | write (result : Int)
  | lseek (result : Int)
  | opendir (result : Int)
  | closedir (result : Int)
  | readdir (result : Int) (d : Entry) (name : Option CStr)
  | remove (result : Int)
  | mkdir (result : Int)
  | rmdir (result : Int)
  | getstat (result : Int) (d : Entry)
  deriving DecidableEq, Repr

/-- The response function. -/
def Response.perform {σ : Type} (h : Host σ) (e : Endian) (r : Response) (s : Client σ) :
    Int × Client σ :=
  match r with
  | .open result => responseOpen e result s
  | .close result => responseClose e result s
  | .read result size => responseRead e result size s
  | .write result => responseWrite e result s
  | .lseek result => responseLseek e result s
  | .opendir result => responseOpendir e result s
  | .closedir result => responseClosedir e result s
  | .readdir result d name => responseReaddir h e result d (name.map CStr.bytes) s
  | .remove result => responseRemove e result s
  | .mkdir result => responseMkdir e result s
  | .rmdir result => responseRmdir e result s
  | .getstat result d => responseGetstat h e result d s

def Response.number : Response → Word
  | .open _ => RESPONSE_OPEN
  | .close _ => RESPONSE_CLOSE
  | .read .. => RESPONSE_READ
  | .write _ => RESPONSE_WRITE
  | .lseek _ => RESPONSE_LSEEK
  | .opendir _ => RESPONSE_OPENDIR
  | .closedir _ => RESPONSE_CLOSEDIR
  | .readdir .. => RESPONSE_READDIR
  | .remove _ => RESPONSE_REMOVE
  | .mkdir _ => RESPONSE_MKDIR
  | .rmdir _ => RESPONSE_RMDIR
  | .getstat .. => RESPONSE_GETSTAT

/-- `if (time) { memcpy(field, time, 8); }` -/
def timeOf : Option (List Byte) → Field
  | some t => .filled (peek t 0 8)
  | none => .unset 8

/-- The fields that the responses to `readdir` and `getstat` have in common. -/
def entryFields (result : Int) (d : Entry) : List Field :=
  [.word (.ofInt 32 result), .word d.mode, .word d.attr, .word d.size, timeOf d.ctime,
    timeOf d.atime, timeOf d.mtime, .word d.hisize]

/-- The fields of the packet after `number` and `length`. -/
def Response.fields : Response → List Field
  | .open result | .close result | .write result | .lseek result | .opendir result
  | .closedir result | .remove result | .mkdir result | .rmdir result => [.word (.ofInt 32 result)]
  | .read result size => [.word (.ofInt 32 result), .word (.ofInt 32 size)]
  | .readdir result d name => entryFields result d ++ [.text name]
  | .getstat result d => entryFields result d

def Response.packet (e : Endian) (r : Response) (stack : List Byte) : List Byte :=
  CMemory.packet e r.number r.fields stack

/-! ## Two runs -/

/-- A call of a function that sends a packet. -/
inductive Function where
  | command (c : Command)
  | response (r : Response)
  deriving DecidableEq, Repr

/-- The bytes passed to `network_send`, when the packet is built on the memory `stack`. -/
def Function.sends (e : Endian) (f : Function) (stack : List Byte) : List Byte :=
  match f with
  | .command c => c.sends e stack
  | .response r => r.packet e stack

/-- Two runs with the same arguments send the same bytes, whatever was in memory. -/
def Function.Determined (e : Endian) (f : Function) : Prop :=
  ∀ stack stack', f.sends e stack = f.sends e stack'

/-- A string of at least 255 bytes fills its field, with the null. -/
def Fills (s : Option CStr) : Prop := ∃ t, s = some t ∧ 255 ≤ t.length

/-- The arguments reach every byte of the packet: `open` of ps2netfs clears it first, `umount` of
ps2netfs never assigns its flags, every other string has to fill its field, and every time has to be
there. -/
def Function.Filled : Function → Prop
  | .command (.netfs (.open ..)) => True
  | .command (.netfs (.umount ..)) => False
  | .command (.netfs c) => ∀ s ∈ c.strings, Fills s
  | .command (.link c) => ∀ s ∈ c.strings, Fills s
  | .response (.readdir _ d name) =>
    d.ctime ≠ none ∧ d.atime ≠ none ∧ d.mtime ≠ none ∧ Fills name
  | .response (.getstat _ d) => d.ctime ≠ none ∧ d.atime ≠ none ∧ d.mtime ≠ none
  | .response _ => True

end Wire

import Ps2Client.CMemory.CString

/-!
# Packed structs on the stack

A packet is built in a local variable of a packed struct type, field by field, and sent as it lies
in memory. The variable is not initialised: bytes that no assignment covers keep what was on the
stack before.
-/

namespace CMemory

/-- What is assigned to a field of a packed struct. -/
inductive Field where
  /-- `field = htonl(w)` -/
  | word (w : Word)
  /-- `field = htons(w)` -/
  | half (w : Half)
  /-- `if (s) { snprintf(field, sizeof(field), "%s", s); }` for a `char field[256]` -/
  | text (s : Option CStr)
  /-- Bytes that are all written. -/
  | filled (bs : List Byte)
  /-- Nothing, for a field of `n` bytes. -/
  | unset (n : Nat)
  deriving DecidableEq, Repr

def Field.size : Field → Nat
  | .word _ => 4
  | .half _ => 2
  | .text _ => 256
  | .filled bs => bs.length
  | .unset n => n

/-- The bytes of a field that lies at the start of `stack`. -/
def Field.store (e : Endian) (stack : List Byte) : Field → List Byte
  | .word w => host32 e (htonl e w)
  | .half w => host16 e (htons e w)
  | .text (some s) => snprintf (peek stack 0 256) 256 s.bytes
  | .text none => peek stack 0 256
  | .filled bs => bs
  | .unset n => peek stack 0 n

/-- The assignment covers the field: a string reaches its last byte, with the null. -/
def Field.Covered : Field → Prop
  | .text s => ∃ t, s = some t ∧ 255 ≤ t.length
  | .unset n => n = 0
  | .word _ | .half _ | .filled _ => True

/-- `sizeof` a packed struct. -/
def sizeof (fields : List Field) : Nat := (fields.map Field.size).sum

/-- The bytes of a packed struct that lies at the start of `stack`. -/
def structBytes (e : Endian) : List Field → List Byte → List Byte
  | [], _ => []
  | f :: fs, stack => f.store e stack ++ structBytes e fs (stack.drop f.size)

/-- A packet: its number, its length, and its other fields. -/
def packet (e : Endian) (number : Word) (fields : List Field) (stack : List Byte) : List Byte :=
  structBytes e (.word number :: .half (.ofNat 16 (6 + sizeof fields)) :: fields) stack

end CMemory

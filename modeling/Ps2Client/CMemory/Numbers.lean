import Ps2Client.CMemory.CString

/-!
# Numbers in strings

`strtoul` in base 0, with a 64-bit `unsigned long`: white space and a sign are optional, `0x` starts
a hexadecimal number and any other `0` an octal one.
-/

namespace CMemory

/-- The value of a digit or letter as a digit, 36 for any other byte. -/
def digitValue (b : Byte) : Nat :=
  if 0x30 ≤ b.toNat ∧ b.toNat ≤ 0x39 then b.toNat - 0x30
  else if 0x61 ≤ b.toNat ∧ b.toNat ≤ 0x7a then b.toNat - 0x61 + 10
  else if 0x41 ≤ b.toNat ∧ b.toNat ≤ 0x5a then b.toNat - 0x41 + 10
  else 36

def isDigitOf (base : Nat) (b : Byte) : Bool := digitValue b < base

/-- The value of a list of digits. -/
def numeral (base : Nat) (ds : List Byte) : Nat := ds.foldl (fun n d => n * base + digitValue d) 0

/-- Whether there is a minus sign, and what follows the sign. -/
def splitSign (s : List Byte) : Bool × List Byte :=
  if s.head? = some (ascii '-') then (true, s.tail)
  else if s.head? = some (ascii '+') then (false, s.tail)
  else (false, s)

/-- `0x` or `0X` in front of a hexadecimal digit. -/
def hexPrefix (s : List Byte) : Bool :=
  s.head? == some (ascii '0') && (s.tail.head? == some (ascii 'x') || s.tail.head? == some (ascii 'X'))
    && (s.drop 2).head?.any (isDigitOf 16)

/-- The base a number is written in, and what follows its prefix. -/
def splitBase (s : List Byte) : Nat × List Byte :=
  if hexPrefix s then (16, s.drop 2) else if s.head? = some (ascii '0') then (8, s) else (10, s)

/-- A value out of range becomes the greatest `unsigned long`; a minus sign negates the others. -/
def signed (negative : Bool) (n : Nat) : Nat :=
  if 2 ^ 64 ≤ n then 2 ^ 64 - 1 else if negative then (2 ^ 64 - n) % 2 ^ 64 else n

/-- `strtoul(s, &end, 0)`: the value, and the string at `end`. -/
def strtoul (s : List Byte) : Nat × List Byte :=
  let (negative, t) := splitSign (s.dropWhile isSpace)
  let (base, t) := splitBase t
  let ds := t.takeWhile (isDigitOf base)
  if ds = [] then (0, s) else (signed negative (numeral base ds), t.dropWhile (isDigitOf base))

/-- What `strtoul` makes of a number that is written out to the end of the string. -/
def constant (t : List Byte) : Option Nat :=
  let (base, ds) := splitBase t
  if ds ≠ [] ∧ ds.all (isDigitOf base) then some (numeral base ds) else none

/-- Whether there is a minus sign behind the white space. -/
def negative (s : List Byte) : Bool := (splitSign (s.dropWhile isSpace)).1

/-- What follows the white space and the sign. -/
def magnitude (s : List Byte) : List Byte := (splitSign (s.dropWhile isSpace)).2

end CMemory

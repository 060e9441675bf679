import Ps2Client.CMemory.Bytes

/-!
# Null-terminated strings

The part of `string.h`, `stdio.h` and `stdlib.h` that works on null-terminated strings. A pointer
to a string is the memory area from the pointed-to byte on; the string is what comes before the
first null byte. The end of the area ends the string too, as if a null byte followed it.
-/

namespace CMemory

/-- The code of an ASCII character. -/
def ascii (c : Char) : Byte := .ofNat 8 c.toNat

/-- The bytes of a string literal. -/
def literal (s : String) : List Byte := s.toList.map ascii

/-- A null-terminated string, without its terminator. -/
structure CStr where
  bytes : List Byte
  noNull : 0 ∉ bytes
  deriving DecidableEq, Repr

def CStr.length (s : CStr) : Nat := s.bytes.length

/-- The string at the start of a memory area. -/
def cstr (m : List Byte) : List Byte := m.takeWhile (· ≠ 0)

def strlen (m : List Byte) : Nat := (cstr m).length

/-- `strstr`: what follows from the first occurrence of `needle` on, the occurrence included. -/
def strstr : List Byte → List Byte → Option (List Byte)
  | [], needle => if needle = [] then some [] else none
  | c :: cs, needle => if needle.isPrefixOf (c :: cs) then some (c :: cs) else strstr cs needle

/-- `isspace` in the "C" locale. -/
def isSpace (b : Byte) : Bool := b == 0x20 || (0x09 ≤ b && b ≤ 0x0d)

def isDigit (b : Byte) : Bool := 0x30 ≤ b && b ≤ 0x39

/-- The value of a string of decimal digits. -/
def decimal (ds : List Byte) : Nat := ds.foldl (fun n d => n * 10 + (d.toNat - 0x30)) 0

/-- `strtol(s, NULL, 10)` with a 64-bit `long`: white space, a sign and digits are optional, and a
value out of range is cut to the nearest `long`. -/
def strtol (s : List Byte) : Int :=
  let s := s.dropWhile isSpace
  let value : Int :=
    if s.head? = some (ascii '-') then -decimal (s.tail.takeWhile isDigit)
    else if s.head? = some (ascii '+') then decimal (s.tail.takeWhile isDigit)
    else decimal (s.takeWhile isDigit)
  max (-2 ^ 63) (min value (2 ^ 63 - 1))

/-- `snprintf(dst, size, "%s", src)` on a destination of at least `size > 0` bytes. -/
def snprintf (dst : List Byte) (size : Nat) (src : List Byte) : List Byte :=
  poke dst 0 (src.take (size - 1) ++ [0])

end CMemory

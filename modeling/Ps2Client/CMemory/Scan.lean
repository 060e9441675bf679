import Ps2Client.CMemory.Numbers

/-!
# Formatted input

`sscanf` with the directives ordinary characters, white space, `%N[^c]` and `%x`. The items that were
assigned are given as a list: their number is what `sscanf` returns.
-/

namespace CMemory

inductive Directive where
  | character (c : Byte)
  | blank
  /-- `%N[^c]` -/
  | scanset (width : Nat) (stop : Byte)
  /-- `%x` into an `unsigned int` -/
  | hex
  deriving DecidableEq, Repr

inductive Item where
  | text (s : List Byte)
  | number (n : BitVec 32)
  deriving DecidableEq, Repr

/-- Ordinary characters of a format. -/
def characters (w : List Byte) : List Directive := w.map .character

/-- What follows an optional `0x` or `0X`. -/
def dropHexPrefix (s : List Byte) : List Byte :=
  if s.head? = some (ascii '0') ∧ (s.tail.head? = some (ascii 'x') ∨ s.tail.head? = some (ascii 'X'))
  then s.drop 2 else s

/-- `%x`: white space, a sign and the prefix are optional, at least one digit is not. A prefix without a
digit behind it is a matching failure, as in ISO C; glibc before 2.42 reads a 0 there. The value is that
of `strtoul`, cut to 32 bits. -/
def scanHex (s : List Byte) : Option (BitVec 32 × List Byte) :=
  let (negative, t) := splitSign (s.dropWhile isSpace)
  let t := dropHexPrefix t
  let ds := t.takeWhile (isDigitOf 16)
  if ds = [] then none
  else some (.ofNat 32 (signed negative (numeral 16 ds)), t.dropWhile (isDigitOf 16))

def sscanf : List Directive → List Byte → List Item
  | [], _ => []
  | .character c :: ds, s => if s.head? = some c then sscanf ds s.tail else []
  | .blank :: ds, s => sscanf ds (s.dropWhile isSpace)
  | .scanset width stop :: ds, s =>
    let t := (s.take width).takeWhile (· ≠ stop)
    -- an empty match is a failure
    if t = [] then [] else .text t :: sscanf ds (s.drop t.length)
  | .hex :: ds, s =>
    match scanHex s with
    | none => []
    | some (n, t) => .number n :: sscanf ds t

/-- What follows the word `w` at the start of a string. -/
def after? (w s : List Byte) : Option (List Byte) :=
  if w.isPrefixOf s then some (s.drop w.length) else none

end CMemory

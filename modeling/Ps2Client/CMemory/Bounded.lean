import Ps2Client.CMemory.Lines

/-!
# Operations that can leave their bounds

The functions of `string.h` on an area with nothing known behind it: they read it byte by byte from
its start, and have no result when they come to its end before they are done. And signed arithmetic,
which has no result when that is not an `int`.
-/

namespace CMemory

/-! ## Arithmetic -/

/-- The result of an operation on `int`s, given the exact value. -/
def int? (x : Int) : Option Int := if toInt32 x = x then some x else none

/-! ## Reads -/

/-- `strlen(m)` -/
def strlen? : List Byte → Option Nat
  | [] => none
  | b :: m => if b = 0 then some 0 else (strlen? m).map (· + 1)

/-- The string at the start of `m`, as `printf` reads it for a `%s`. -/
def string? (m : List Byte) : Option CStr := (strlen? m).map fun _ => CStr.ofBuffer m

/-- Whether `strcmp(m, s)` is 0. The comparison ends at the first difference. -/
def strcmp? : List Byte → List Byte → Option Bool
  | [], _ => none
  | b :: _, [] => some (b == 0)
  | b :: m, c :: s => if b = c then strcmp? m s else some false

/-- The null-terminated strings that lie in an area one behind the other. What is behind the last
null byte is none. -/
def strings (m : List Byte) : List (List Byte) := (m.splitOn 0).dropLast

end CMemory

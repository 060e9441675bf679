import Ps2Client.CMemory.Proofs.CStringProofs

/-!
# Reading lines

`fgets` on a stream, given by the bytes that are still to come. The bytes it stores may have nulls
among them; read as a string they end at the first one.
-/

namespace CMemory

def newline : Byte := 0x0a

/-- At most `n` bytes, up to the first newline, which is taken too; and what comes after them. -/
def cutLine : Nat → List Byte → List Byte × List Byte
  | 0, input => ([], input)
  | _ + 1, [] => ([], [])
  | n + 1, b :: input =>
    if b = newline then ([b], input) else
      let (line, rest) := cutLine n input
      (b :: line, rest)

/-- `fgets(line, size, stream)`: the bytes stored before the null, and the rest of the stream. There
are none at the end of the stream. -/
def fgets (size : Nat) (input : List Byte) : Option (List Byte × List Byte) :=
  if input = [] then none else some (cutLine (size - 1) input)

theorem cutLine_append (n : Nat) (input : List Byte) :
    (cutLine n input).1 ++ (cutLine n input).2 = input := by
  induction n generalizing input with
  | zero => rfl
  | succ n ih =>
    cases input with
    | nil => rfl
    | cons b input =>
      rw [cutLine]
      split_ifs
      · rfl
      · exact congrArg (b :: ·) (ih input)

theorem fgets_append {size : Nat} {input line rest : List Byte}
    (h : fgets size input = some (line, rest)) : line ++ rest = input := by
  rw [fgets] at h
  split_ifs at h
  have hcut := cutLine_append (size - 1) input
  rw [Option.some.inj h] at hcut
  exact hcut

/-- A buffer of two bytes or more takes something off the stream. -/
theorem fgets_length {size : Nat} (hsize : 2 ≤ size) {input line rest : List Byte}
    (h : fgets size input = some (line, rest)) : rest.length < input.length := by
  have happend := fgets_append h
  obtain ⟨n, hn⟩ : ∃ n, size - 1 = n + 1 := ⟨size - 2, by omega⟩
  have hline : line ≠ [] := by
    rw [fgets, hn] at h
    split_ifs at h with hinput
    cases input with
    | nil => exact absurd rfl hinput
    | cons b input =>
      rw [cutLine] at h
      split_ifs at h <;> cases h <;> exact List.cons_ne_nil _ _
  rw [← happend, List.length_append]
  have hpos := List.length_pos_of_ne_nil hline
  omega

/-- The string in a buffer. -/
def CStr.ofBuffer (buffer : List Byte) : CStr := ⟨cstr buffer, zero_notMem_cstr _⟩

end CMemory

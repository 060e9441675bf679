import Ps2Client.CMemory.CString
import Ps2Client.CMemory.Proofs.BytesProofs
import Mathlib.Data.List.TakeWhile

/-!
# Proofs: null-terminated strings
-/

namespace CMemory

/-! ## The string at the start of an area -/

@[simp] theorem cstr_nil : cstr [] = [] := rfl

theorem cstr_cons (c : Byte) (m : List Byte) :
    cstr (c :: m) = if c = 0 then [] else c :: cstr m := by
  by_cases h : c = 0
  · rw [if_pos h, cstr, List.takeWhile_cons_of_neg (by simp [h])]
  · rw [if_neg h, cstr, List.takeWhile_cons_of_pos (by simpa using h), cstr]

/-- Every byte of a string without null bytes belongs to it. -/
theorem takes_of_notMem {s : List Byte} (hs : 0 ∉ s) : ∀ a ∈ s, decide (a ≠ 0) = true := by
  intro a ha
  exact decide_eq_true fun h => hs (h ▸ ha)

/-- A string without null bytes is read up to the null byte that follows it. -/
theorem cstr_append_zero {s : List Byte} (hs : 0 ∉ s) (rest : List Byte) :
    cstr (s ++ 0 :: rest) = s := by
  rw [cstr, List.takeWhile_append_of_pos (takes_of_notMem hs),
    List.takeWhile_cons_of_neg (by simp), List.append_nil]

/-- A string without null bytes that fills its area. -/
theorem cstr_eq_self {s : List Byte} (hs : 0 ∉ s) : cstr s = s := by
  rw [cstr]
  exact List.takeWhile_eq_self_iff.mpr (takes_of_notMem hs)

theorem zero_notMem_cstr (m : List Byte) : 0 ∉ cstr m := by
  intro h
  exact absurd (List.mem_takeWhile_imp h) (by simp)

theorem cstr_isPrefix (m : List Byte) : cstr m <+: m := List.takeWhile_prefix _

theorem strlen_le_length (m : List Byte) : strlen m ≤ m.length :=
  (cstr_isPrefix m).length_le

theorem strlen_cons (c : Byte) (m : List Byte) :
    strlen (c :: m) = if c = 0 then 0 else strlen m + 1 := by
  rw [strlen, cstr_cons]
  split_ifs <;> rfl

/-- An area with a null byte is a string, its terminator and the rest. -/
theorem cstr_split {m : List Byte} (hm : 0 ∈ m) : cstr m ++ 0 :: m.drop (strlen m + 1) = m := by
  induction m with
  | nil => exact absurd hm List.not_mem_nil
  | cons c m ih =>
    rw [cstr_cons, strlen_cons]
    by_cases hc : c = 0
    · rw [if_pos hc, if_pos hc, hc]
      rfl
    · have hm : 0 ∈ m := (List.mem_cons.mp hm).resolve_left (Ne.symm hc)
      rw [if_neg hc, if_neg hc]
      exact congrArg (c :: ·) (ih hm)

/-- Behind the string there is a null byte or nothing. -/
theorem cstr_dropWhile (m : List Byte) : cstr (m.dropWhile (· ≠ 0)) = [] := by
  induction m with
  | nil => rfl
  | cons c m ih =>
    by_cases hc : c = 0
    · rw [List.dropWhile_cons_of_neg (by simp [hc]), cstr_cons, if_pos hc]
    · rw [List.dropWhile_cons_of_pos (by simpa using hc), ih]

/-- The string ends inside the first `a` when there is a null byte in it. -/
theorem cstr_append_of_mem {a : List Byte} (h : 0 ∈ a) (b : List Byte) :
    cstr (a ++ b) = cstr a := by
  induction a with
  | nil => simp at h
  | cons c a ih =>
    rw [List.cons_append, cstr_cons, cstr_cons]
    by_cases hc : c = 0
    · rw [if_pos hc, if_pos hc]
    · have ha : 0 ∈ a := by
        rcases List.mem_cons.mp h with h | h
        · exact absurd h.symm hc
        · exact h
      rw [if_neg hc, if_neg hc, ih ha]

/-- Without a null byte in `a`, the string goes on into what follows. -/
theorem cstr_append_of_notMem {a : List Byte} (h : 0 ∉ a) (b : List Byte) :
    cstr (a ++ b) = a ++ cstr b := by
  rw [cstr, cstr, List.takeWhile_append_of_pos (takes_of_notMem h)]

/-! ## `strstr` -/

/-- The needle is found exactly when it is a substring. -/
theorem strstr_isSome_iff (hay needle : List Byte) :
    (strstr hay needle).isSome ↔ needle <:+: hay := by
  induction hay with
  | nil => by_cases h : needle = [] <;> simp [strstr, h]
  | cons c cs ih =>
    rw [strstr, List.infix_cons_iff, ← @List.isPrefixOf_iff_prefix _ _ _ needle]
    by_cases h : needle.isPrefixOf (c :: cs) = true
    · simp [h]
    · simp [h, ih]

/-! ## `snprintf` -/

/-- Copying a string into a field leaves the string there, cut to the field, its terminator, and
behind it what was there before. -/
theorem snprintf_eq (dst src : List Byte) (size : Nat) :
    snprintf dst size src =
      src.take (size - 1) ++ 0 :: dst.drop ((src.take (size - 1)).length + 1) := by
  rw [snprintf, poke_zero]
  simp

/-- A string that fits is read back from the field. -/
theorem cstr_snprintf {dst src : List Byte} {size : Nat} (hs : 0 ∉ src)
    (hlen : src.length < size) : cstr (snprintf dst size src) = src := by
  have htake : src.take (size - 1) = src := List.take_of_length_le (by omega)
  rw [snprintf_eq, htake, cstr_append_zero hs]

theorem snprintf_length {dst src : List Byte} {size : Nat} (hsize : 0 < size)
    (hdst : dst.length = size) : (snprintf dst size src).length = size := by
  rw [snprintf_eq]
  simp only [List.length_append, List.length_cons, List.length_drop, List.length_take]
  omega

end CMemory

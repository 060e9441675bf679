import Ps2Client.Utility.FixArgv
import Ps2Client.CMemory.Proofs.StructProofs

/-!
# Proofs: `fix_argv`
-/

namespace Utility

open CMemory

@[simp] theorem joined_nil : joined [] = [] := rfl

@[simp] theorem joined_cons (a : CStr) (argv : List CStr) :
    joined (a :: argv) = a.bytes ++ (0 :: joined argv) := by
  rw [joined, List.flatMap_cons, List.append_assoc]
  rfl

theorem joined_length_cons (a : CStr) (argv : List CStr) :
    (joined (a :: argv)).length = a.length + 1 + (joined argv).length := by
  rw [joined_cons, List.length_append, List.length_cons, CStr.length]
  omega

theorem length_le_joined (argv : List CStr) : argv.length ≤ (joined argv).length := by
  induction argv with
  | nil => exact Nat.le_refl 0
  | cons a argv ih =>
    rw [joined_length_cons, List.length_cons]
    omega

/-- The loop returns 0 exactly when what is left fits. -/
theorem fixArgvLoop_result {size : Nat} (argv : List CStr) (destination : List Byte) (used : Nat)
    (hused : used ≤ size) : (fixArgvLoop size argv destination used).1 =
      if used + (joined argv).length ≤ size then 0 else -1 := by
  induction argv generalizing destination used with
  | nil => exact (if_pos (Nat.le_trans (Nat.le_of_eq rfl) hused)).symm
  | cons a argv ih =>
    rw [fixArgvLoop, joined_length_cons]
    by_cases hfit : size < used + (a.length + 1)
    · rw [if_pos hfit, if_neg (by omega)]
    · rw [if_neg hfit, ih _ _ (by omega), Nat.add_assoc used]

/-- The loop writes the arguments behind what is there, and clears the rest. -/
theorem fixArgvLoop_eq {size : Nat} (argv : List CStr) (done rest : List Byte)
    (hlen : done.length + rest.length = size)
    (hfit : done.length + (joined argv).length ≤ size) :
    (fixArgvLoop size argv (done ++ rest) done.length).2 = done ++ joined argv ++
      List.replicate (size - done.length - (joined argv).length) 0 := by
  induction argv generalizing done rest with
  | nil =>
    have hdrop : rest.drop (size - done.length) = [] := List.drop_eq_nil_of_le (by omega)
    rw [fixArgvLoop, poke_append, List.length_replicate, hdrop]
    simp
  | cons a argv ih =>
    rw [joined_length_cons] at hfit
    have hdone : (done ++ (a.bytes ++ [0])).length = done.length + (a.length + 1) := by
      simp [CStr.length]
    have hlen' : (done ++ (a.bytes ++ [0])).length + (rest.drop (a.bytes ++ [0]).length).length
        = size := by
      simp [CStr.length] at hfit ⊢
      omega
    have hleft : size - (done.length + (a.length + 1)) - (joined argv).length =
        size - done.length - (a.length + 1 + (joined argv).length) := by
      omega
    rw [fixArgvLoop, if_neg (by omega), poke_append, ← hdone, ih _ _ hlen' (by omega), hdone,
      joined_length_cons, joined_cons, hleft]
    simp

/-- `fix_argv` returns 0 exactly when the arguments with their nulls fit, else -1. -/
theorem fixArgv_result (destination : List Byte) (size : Nat) (argv : List CStr) :
    (fixArgv destination size argv).1 = if (joined argv).length ≤ size then 0 else -1 := by
  rw [fixArgv, fixArgvLoop_result argv destination 0 (Nat.zero_le size), Nat.zero_add]

/-- `fix_argv` writes the arguments, and nulls behind them. -/
theorem fixArgv_eq {destination : List Byte} {size : Nat} {argv : List CStr}
    (hlen : destination.length = size) (hfit : (joined argv).length ≤ size) :
    (fixArgv destination size argv).2 =
      joined argv ++ List.replicate (size - (joined argv).length) 0 := by
  have h := fixArgvLoop_eq argv [] destination (by simpa using hlen) (by simpa using hfit)
  simpa [fixArgv] using h

/-! ## Splitting the strings off -/

theorem splitStrings_joined (argv : List CStr) (rest : List Byte) :
    splitStrings argv.length (joined argv ++ rest) = some (argv.map CStr.bytes, rest) := by
  induction argv with
  | nil => rfl
  | cons a argv ih =>
    have hsplit : joined (a :: argv) ++ rest = a.bytes ++ (0 :: (joined argv ++ rest)) := by
      rw [joined_cons, List.append_assoc, List.cons_append]
    have hcstr : cstr (a.bytes ++ (0 :: (joined argv ++ rest))) = a.bytes :=
      cstr_append_zero a.noNull _
    have hdrop : (a.bytes ++ (0 :: (joined argv ++ rest))).drop (a.bytes.length + 1) =
        joined argv ++ rest := by
      rw [← List.drop_drop, List.drop_left]
      rfl
    rw [hsplit, List.length_cons, splitStrings, if_pos (by simp), strlen, hcstr, hdrop, ih]
    rfl

end Utility

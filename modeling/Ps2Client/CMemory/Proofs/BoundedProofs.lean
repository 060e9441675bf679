import Ps2Client.CMemory.Bounded

/-!
# Proofs: operations that can leave their bounds
-/

namespace CMemory

/-! ## Arithmetic -/

theorem int?_of_fits {x : Int} (hlow : -2 ^ 31 ≤ x) (hhigh : x < 2 ^ 31) : int? x = some x :=
  if_pos (toInt32_of_fits hlow hhigh)

/-- A number that is not negative overflows from 2^31 on. -/
theorem int?_of_overflow {x : Int} (h : 2 ^ 31 ≤ x) : int? x = none := by
  refine if_neg fun heq => ?_
  rw [toInt32_eq] at heq
  split_ifs at heq <;> omega

/-! ## Reads -/

/-- `strlen` stays in the area exactly when there is a null byte in it. -/
theorem strlen?_eq (m : List Byte) : strlen? m = if 0 ∈ m then some (strlen m) else none := by
  induction m with
  | nil => rfl
  | cons b m ih =>
    rw [strlen?, ih, strlen_cons]
    by_cases hb : b = 0
    · rw [if_pos hb, if_pos hb, if_pos (List.mem_cons.mpr (Or.inl hb.symm))]
    · rw [if_neg hb, if_neg hb]
      by_cases hm : 0 ∈ m
      · rw [if_pos hm, if_pos (List.mem_cons_of_mem _ hm)]
        rfl
      · have hcons : 0 ∉ b :: m := fun h => hm ((List.mem_cons.mp h).resolve_left (Ne.symm hb))
        rw [if_neg hm, if_neg hcons]
        rfl

theorem string?_eq (m : List Byte) :
    string? m = if 0 ∈ m then some (CStr.ofBuffer m) else none := by
  rw [string?, strlen?_eq]
  by_cases hm : 0 ∈ m
  · rw [if_pos hm, if_pos hm]
    rfl
  · rw [if_neg hm, if_neg hm]
    rfl

/-- With a null byte in the area, `strcmp` stays in it. -/
theorem strcmp?_eq {m s : List Byte} (hm : 0 ∈ m) (hs : 0 ∉ s) :
    strcmp? m s = some (decide (cstr m = s)) := by
  induction m generalizing s with
  | nil => exact absurd hm List.not_mem_nil
  | cons b m ih =>
    cases s with
    | nil =>
      rw [strcmp?, cstr_cons]
      by_cases hb : b = 0
      · rw [if_pos hb, hb]
        rfl
      · rw [if_neg hb, beq_eq_false_iff_ne.mpr hb]
        rfl
    | cons c s =>
      have hc : c ≠ 0 := fun h => hs (List.mem_cons.mpr (Or.inl h.symm))
      have hs : 0 ∉ s := fun h => hs (List.mem_cons_of_mem _ h)
      rw [strcmp?, cstr_cons]
      by_cases hb : b = 0
      · rw [if_neg (fun h => hc (h.symm.trans hb)), if_pos hb]
        rfl
      · have hm : 0 ∈ m := (List.mem_cons.mp hm).resolve_left (Ne.symm hb)
        rw [if_neg hb, ih hm hs]
        by_cases hbc : b = c <;> simp [hbc]

theorem strings_of_notMem {m : List Byte} (hm : 0 ∉ m) : strings m = [] := by
  rw [strings, List.splitOn_eq_singleton hm]
  rfl

theorem strings_of_mem {m : List Byte} (hm : 0 ∈ m) :
    strings m = cstr m :: strings (m.drop (strlen m + 1)) := by
  rw [strings]
  conv_lhs => rw [← cstr_split hm]
  rw [List.splitOn_append_cons_self_of_not_mem (zero_notMem_cstr m),
    List.dropLast_cons_of_ne_nil (List.splitOn_ne_nil _ _)]
  rfl

/-- The null byte behind the first string is followed by the others. -/
theorem count_of_mem {m : List Byte} (hm : 0 ∈ m) :
    m.count 0 = (m.drop (strlen m + 1)).count 0 + 1 := by
  have hcount := congrArg (List.count 0) (cstr_split hm)
  rw [List.count_append, List.count_cons_self,
    List.count_eq_zero_of_not_mem (zero_notMem_cstr m), Nat.zero_add] at hcount
  exact hcount.symm

/-- There are as many strings as null bytes. -/
theorem strings_length (m : List Byte) : (strings m).length = m.count 0 := by
  by_cases hm : 0 ∈ m
  · have hlt : (m.drop (strlen m + 1)).length < m.length := by
      have hpos := List.length_pos_of_mem hm
      rw [List.length_drop]
      omega
    rw [strings_of_mem hm, List.length_cons, strings_length (m.drop (strlen m + 1)),
      count_of_mem hm]
  · rw [strings_of_notMem hm, List.count_eq_zero_of_not_mem hm]
    rfl
termination_by m.length

end CMemory

import Mathlib.Data.List.Induction
import Mathlib.Data.List.TakeWhile
import Ps2Client.CMemory.Numbers

/-!
# Proofs: numbers in strings
-/

namespace CMemory

/-! ## Positional values -/

theorem numeral_concat (base : Nat) (ds : List Byte) (d : Byte) :
    numeral base (ds ++ [d]) = numeral base ds * base + digitValue d := by
  rw [numeral, List.foldl_append, numeral]
  rfl

theorem numeral_octal_le (ds : List Byte) : numeral 8 ds ≤ numeral 10 ds := by
  induction ds using List.reverseRecOn with
  | nil => exact Nat.le_refl 0
  | append_singleton ds d ih =>
    rw [numeral_concat, numeral_concat]
    omega

theorem numeral_decimal_zero {ds : List Byte} (h : numeral 8 ds = 0) : numeral 10 ds = 0 := by
  induction ds using List.reverseRecOn with
  | nil => rfl
  | append_singleton ds d ih =>
    rw [numeral_concat] at h ⊢
    have hzero := ih (by omega)
    omega

/-- Octal digits spell the same number in base 10 exactly when there is one significant digit. -/
theorem numeral_octal_eq_iff {ds : List Byte} (hds : ∀ d ∈ ds, isDigitOf 8 d = true) :
    numeral 8 ds = numeral 10 ds ↔ numeral 8 ds < 8 := by
  rcases List.eq_nil_or_concat ds with rfl | ⟨init, d, rfl⟩
  · exact iff_of_true rfl (by decide)
  · have hd : digitValue d < 8 := of_decide_eq_true (hds d (by simp))
    have hle := numeral_octal_le init
    rw [List.concat_eq_append, numeral_concat, numeral_concat]
    constructor
    · intro h
      omega
    · intro h
      have hzero := @numeral_decimal_zero init (by omega)
      omega

/-! ## White space and signs -/

theorem isDigitOf_mono {b : Byte} {base base' : Nat} (h : isDigitOf base b = true)
    (hle : base ≤ base') : isDigitOf base' b = true :=
  decide_eq_true (Nat.lt_of_lt_of_le (of_decide_eq_true h) hle)

theorem decimal_digit_range {b : Byte} (h : isDigitOf 10 b = true) :
    0x30 ≤ b.toNat ∧ b.toNat ≤ 0x39 := by
  have hlt : digitValue b < 10 := of_decide_eq_true h
  unfold digitValue at hlt
  split_ifs at hlt with hdigit hlower hupper
  · exact hdigit
  · omega
  · omega
  · omega

/-- A number without white space or a sign is all there is. -/
theorem magnitude_of_digit {s : List Byte} {b : Byte} (hs : s.head? = some b)
    (hb : isDigitOf 10 b = true) : magnitude s = s ∧ negative s = false := by
  obtain ⟨hlow, hhigh⟩ := decimal_digit_range hb
  cases s with
  | nil => cases hs
  | cons c s =>
    cases hs
    have hspace : isSpace b = false := by
      have hblank : (b == 0x20) = false := by
        rw [beq_eq_false_iff_ne]
        rintro rfl
        exact absurd hlow (by decide)
      have hcontrol : decide (b ≤ 0x0d) = false := by
        refine decide_eq_false ?_
        rw [BitVec.le_def]
        intro hle
        exact absurd (Nat.le_trans hlow hle) (by decide)
      rw [isSpace, hblank, hcontrol, Bool.and_false, Bool.or_false]
    have hminus : b ≠ ascii '-' := by
      rintro rfl
      exact absurd hlow (by decide)
    have hplus : b ≠ ascii '+' := by
      rintro rfl
      exact absurd hlow (by decide)
    have hsplit : splitSign ((b :: s).dropWhile isSpace) = (false, b :: s) := by
      rw [List.dropWhile_cons_of_neg (by simp [hspace]), splitSign]
      simp [hminus, hplus]
    exact ⟨congrArg Prod.snd hsplit, congrArg Prod.fst hsplit⟩

theorem negative_of_magnitude {s : List Byte} (h : magnitude s = s) : negative s = false := by
  by_cases hminus : (s.dropWhile isSpace).head? = some (ascii '-')
  · have hlen : (s.dropWhile isSpace).length ≤ s.length := (List.dropWhile_suffix _).length_le
    rw [magnitude, splitSign, if_pos hminus] at h
    have htail := congrArg List.length h
    rw [List.length_tail] at htail
    cases hdrop : s.dropWhile isSpace with
    | nil =>
      rw [hdrop] at hminus
      cases hminus
    | cons b t =>
      rw [hdrop, List.length_cons] at hlen htail
      omega
  · rw [negative, splitSign, if_neg hminus]
    split_ifs <;> rfl

/-! ## `strtoul` -/

theorem strtoul_eq {s t : List Byte} {base : Nat} (hbase : splitBase (magnitude s) = (base, t)) :
    strtoul s = if t.takeWhile (isDigitOf base) = [] then (0, s) else
      (signed (negative s) (numeral base (t.takeWhile (isDigitOf base))),
        t.dropWhile (isDigitOf base)) := by
  have heq : strtoul s =
      if (splitBase (magnitude s)).2.takeWhile (isDigitOf (splitBase (magnitude s)).1) = [] then (0, s)
      else (signed (negative s) (numeral (splitBase (magnitude s)).1
          ((splitBase (magnitude s)).2.takeWhile (isDigitOf (splitBase (magnitude s)).1))),
        (splitBase (magnitude s)).2.dropWhile (isDigitOf (splitBase (magnitude s)).1)) := rfl
  rw [heq, hbase]

theorem constant_eq {t ds : List Byte} {base : Nat} (hbase : splitBase t = (base, ds)) :
    constant t = if ds ≠ [] ∧ ds.all (isDigitOf base) then some (numeral base ds) else none := by
  have heq : constant t = if (splitBase t).2 ≠ [] ∧ (splitBase t).2.all (isDigitOf (splitBase t).1)
      then some (numeral (splitBase t).1 (splitBase t).2) else none := rfl
  rw [heq, hbase]

theorem constant_some {t ds : List Byte} {base n : Nat} (hbase : splitBase t = (base, ds))
    (h : constant t = some n) :
    ds ≠ [] ∧ (∀ d ∈ ds, isDigitOf base d = true) ∧ numeral base ds = n := by
  rw [constant_eq hbase] at h
  split_ifs at h with hds
  exact ⟨hds.1, List.all_eq_true.mp hds.2, Option.some.inj h⟩

/-- `strtoul` reads the whole of a string with a number behind the white space and the sign. -/
theorem strtoul_some {s : List Byte} {n : Nat} (h : constant (magnitude s) = some n) :
    strtoul s = (signed (negative s) n, []) := by
  rcases hbase : splitBase (magnitude s) with ⟨base, ds⟩
  obtain ⟨hne, hall, hn⟩ := constant_some hbase h
  have htake := List.takeWhile_eq_self_iff.mpr hall
  have hdrop := List.dropWhile_eq_nil_iff.mpr hall
  rw [strtoul_eq hbase, htake, hdrop, if_neg hne, hn]

theorem strtoul_none {s : List Byte} (hs : s ≠ []) (h : constant (magnitude s) = none) :
    (strtoul s).2 ≠ [] := by
  intro hrest
  rcases hbase : splitBase (magnitude s) with ⟨base, ds⟩
  rw [strtoul_eq hbase] at hrest
  split_ifs at hrest with hnone
  · exact hs hrest
  · have hall := List.all_eq_true.mpr (List.dropWhile_eq_nil_iff.mp hrest)
    have hne : ds ≠ [] := by
      intro hnil
      rw [hnil] at hnone
      exact hnone rfl
    rw [constant_eq hbase, if_pos ⟨hne, hall⟩] at h
    cases h

end CMemory

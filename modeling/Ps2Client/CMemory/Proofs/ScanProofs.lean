import Mathlib.Data.List.DropRight
import Mathlib.Data.List.TakeWhile
import Ps2Client.CMemory.Scan

/-!
# Proofs: formatted input
-/

namespace CMemory

/-! ## Searching -/

theorem strstr_isPrefix {s needle t : List Byte} (h : strstr s needle = some t) : needle <+: t := by
  induction s with
  | nil =>
    rw [strstr] at h
    split_ifs at h with hneedle
    rw [hneedle]
    exact List.nil_prefix
  | cons c s ih =>
    rw [strstr] at h
    split_ifs at h with hpre
    · rw [← Option.some.inj h]
      exact List.isPrefixOf_iff_prefix.mp hpre
    · exact ih h

/-- What is found starts with the needle. -/
theorem strstr_eq_append {s needle t : List Byte} (h : strstr s needle = some t) :
    t = needle ++ t.drop needle.length :=
  (List.prefix_iff_eq_append.mp (strstr_isPrefix h)).symm

/-! ## Directives -/

theorem after?_append (w s : List Byte) : after? w (w ++ s) = some s := by
  rw [after?, if_pos (List.isPrefixOf_iff_prefix.mpr (List.prefix_append w s)), List.drop_left]

theorem after?_cons (c : Byte) (w s : List Byte) :
    after? (c :: w) s = if s.head? = some c then after? w s.tail else none := by
  cases s with
  | nil => rfl
  | cons b s =>
    by_cases hb : b = c
    · subst hb
      simp [after?]
    · simp [after?, hb, Ne.symm hb]

/-- Ordinary characters have to be there. -/
theorem sscanf_characters (w : List Byte) (ds : List Directive) (s : List Byte) :
    sscanf (characters w ++ ds) s = ((after? w s).map (sscanf ds)).getD [] := by
  induction w generalizing s with
  | nil => rfl
  | cons c w ih =>
    rw [after?_cons, characters, List.map_cons, List.cons_append, sscanf]
    split_ifs with hc
    · exact ih s.tail
    · rfl

/-- White space in front of a number is skipped in any case. -/
theorem scanHex_dropWhile (s : List Byte) : scanHex (s.dropWhile isSpace) = scanHex s := by
  rw [scanHex, List.dropWhile_idempotent]
  rfl

theorem sscanf_blank_hex (s : List Byte) :
    sscanf [.blank, .hex] s = ((scanHex s).map fun r => .number r.1).toList := by
  rw [sscanf, sscanf, scanHex_dropWhile]
  cases scanHex s with
  | none => rfl
  | some r => rfl

/-- A quoted text within the width is assigned whole. -/
theorem sscanf_quoted {width : Nat} {stop : Byte} {ds : List Directive} {s : List Byte}
    (hpos : 1 ≤ (s.takeWhile (· ≠ stop)).length) (hle : (s.takeWhile (· ≠ stop)).length ≤ width) :
    sscanf (.scanset width stop :: ds) s =
      .text (s.takeWhile (· ≠ stop)) :: sscanf ds (s.drop (s.takeWhile (· ≠ stop)).length) := by
  have htake : (s.take width).takeWhile (· ≠ stop) = s.takeWhile (· ≠ stop) := by
    rw [← List.take_takeWhile, List.take_of_length_le hle]
  rw [sscanf, htake]
  exact if_neg (List.ne_nil_of_length_pos hpos)

/-- One that is longer is not followed by its quote. -/
theorem sscanf_quoted_long {width : Nat} {stop : Byte} {ds : List Directive} {s : List Byte}
    (h : ¬ (1 ≤ (s.takeWhile (· ≠ stop)).length ∧ (s.takeWhile (· ≠ stop)).length ≤ width)) :
    (sscanf (.scanset width stop :: .character stop :: ds) s).length ≤ 1 := by
  have htake : (s.take width).takeWhile (· ≠ stop) = (s.takeWhile (· ≠ stop)).take width :=
    List.take_takeWhile.symm
  rw [sscanf, htake]
  split_ifs with hnil
  · exact Nat.zero_le 1
  · have hlong : width < (s.takeWhile (· ≠ stop)).length := by
      by_contra hle
      refine hnil ?_
      rw [List.take_eq_nil_iff]
      right
      exact List.eq_nil_of_length_eq_zero (by omega)
    rw [List.length_take, Nat.min_eq_left (by omega), sscanf]
    have hhead : (s.drop width).head? ≠ some stop := by
      intro hstop
      have hget : (s.takeWhile (· ≠ stop))[width]? = s[width]? :=
        (List.prefix_iff_getElem?.mp (List.takeWhile_prefix _) width hlong).symm ▸
          List.getElem?_eq_getElem hlong
      rw [List.head?_drop] at hstop
      have hmem : stop ∈ s.takeWhile (· ≠ stop) := List.mem_of_getElem? (hget.trans hstop)
      simpa using List.mem_takeWhile_imp hmem
    rw [if_neg hhead]
    exact Nat.le_refl 1

end CMemory

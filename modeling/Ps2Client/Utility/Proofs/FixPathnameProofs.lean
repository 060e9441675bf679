import Ps2Client.Utility.FixPathname
import Ps2Client.Utility.Proofs.FixArgumentsProofs

/-!
# Proofs: `fix_pathname` stays in its field

A store of a byte that is not null into the string keeps its length, so the stores of both loops lie
where the string was at the start.
-/

namespace Utility

open CMemory

/-! ## Strings in a field -/

theorem byteAt_ne_zero {p : List Byte} {i : Nat} (hi : i < strlen p) : byteAt p i ≠ 0 := by
  induction p generalizing i with
  | nil => exact absurd hi (Nat.not_lt_zero i)
  | cons c p ih =>
    rw [strlen_cons] at hi
    split_ifs at hi with hc
    · exact absurd hi (Nat.not_lt_zero i)
    · cases i with
      | zero => exact hc
      | succ i =>
        rw [byteAt_cons_succ]
        exact ih (Nat.lt_of_succ_lt_succ hi)

/-- A store into the string that is not a null keeps its length. -/
theorem strlen_set {p : List Byte} {i : Nat} {b : Byte} (hi : i < strlen p) (hb : b ≠ 0) :
    strlen (p.set i b) = strlen p := by
  induction p generalizing i with
  | nil => exact absurd hi (Nat.not_lt_zero i)
  | cons c p ih =>
    rw [strlen_cons] at hi
    split_ifs at hi with hc
    · exact absurd hi (Nat.not_lt_zero i)
    · cases i with
      | zero =>
        rw [List.set_cons_zero, strlen_cons, strlen_cons, if_neg hb, if_neg hc]
      | succ i =>
        rw [List.set_cons_succ, strlen_cons, strlen_cons, if_neg hc, if_neg hc,
          ih (Nat.lt_of_succ_lt_succ hi)]

/-! ## The stores make the path -/

theorem storeAll_append (p : List Byte) (xs ys : List Store) :
    storeAll p (xs ++ ys) = storeAll (storeAll p xs) ys := List.foldl_append

theorem storeAll_length (p : List Byte) (stores : List Store) :
    (storeAll p stores).length = p.length := by
  induction stores generalizing p with
  | nil => rfl
  | cons s stores ih => exact (ih _).trans List.length_set

theorem convertStores_eq (p : List Byte) (i : Nat) :
    storeAll p (convertStores p i) = convertLoop p i := by
  fun_induction convertStores p i with
  | case1 p i hlt hslash ih =>
    rw [convertLoop, dif_pos hlt, if_pos hslash]
    exact ih
  | case2 p i hlt hother ih =>
    rw [convertLoop, dif_pos hlt, if_neg hother]
    exact ih
  | case3 p i hend =>
    rw [convertLoop, dif_neg hend]
    rfl

theorem shiftStores_eq (p : List Byte) (i : Nat) :
    shiftLoop p i = (storeAll p (shiftStores p i).1, (shiftStores p i).2) := by
  fun_induction shiftStores p i with
  | case1 p i hlt stores last heq ih =>
    rw [shiftLoop, dif_pos hlt, ih, heq]
    rfl
  | case2 p i hend =>
    rw [shiftLoop, dif_neg hend]
    rfl

/-- The default is two stores. -/
theorem poke_two {p : List Byte} (hsize : 2 ≤ p.length) (a b : Byte) :
    poke p 0 [a, b] = storeAll p [⟨0, a⟩, ⟨1, b⟩] := by
  match p, hsize with
  | c :: d :: p, _ => rfl

theorem pathnameStores_eq {p : List Byte} (hsize : 2 ≤ p.length) :
    storeAll p (pathnameStores p) = fixPathname p := by
  have hnamed : (if byteAt p 0 = 0 then poke p 0 [ascii '.', 0] else p) =
      storeAll p (if byteAt p 0 = 0 then [⟨0, ascii '.'⟩, ⟨1, 0⟩] else []) := by
    split_ifs
    · exact poke_two hsize _ _
    · rfl
  unfold pathnameStores fixPathname
  dsimp only
  rw [storeAll_append, storeAll_append, hnamed, convertStores_eq]
  generalize (if byteAt p 0 = 0 then [⟨0, ascii '.'⟩, ⟨1, 0⟩] else [] : List Store) = named
  split_ifs with hslash
  · rw [shiftStores_eq, storeAll_append]
    rfl
  · rfl

/-! ## Where the stores are -/

theorem convertStores_inside {p : List Byte} {i : Nat} :
    ∀ s ∈ convertStores p i, s.offset < strlen p := by
  fun_induction convertStores p i with
  | case1 p i hlt hslash ih =>
    intro s hs
    rcases List.mem_cons.mp hs with rfl | hs
    · exact hlt
    · rw [← strlen_set hlt (show ascii '/' ≠ 0 by decide)]
      exact ih s hs
  | case2 p i hlt hother ih => exact ih
  | case3 p i hend =>
    intro s hs
    cases hs

/-- The first loop keeps the length of the string. -/
theorem strlen_convertLoop (p : List Byte) (i : Nat) : strlen (convertLoop p i) = strlen p := by
  fun_induction convertLoop p i with
  | case1 p i hlt ih =>
    split_ifs at ih ⊢ with hslash
    · exact ih.trans (strlen_set hlt (by decide))
    · exact ih
  | case2 p i hend => rfl

theorem shiftStores_inside {p : List Byte} {i : Nat} (hi : i ≤ strlen p - 1) :
    (∀ s ∈ (shiftStores p i).1, s.offset < strlen p) ∧ (shiftStores p i).2 ≤ strlen p - 1 := by
  fun_induction shiftStores p i with
  | case1 p i hlt stores last heq ih =>
    have hlen : strlen (p.set i (byteAt p (i + 1))) = strlen p :=
      strlen_set (by omega) (byteAt_ne_zero (by omega))
    rw [hlen, heq] at ih
    obtain ⟨hstores, hlast⟩ := ih (by omega)
    refine ⟨?_, hlast⟩
    intro s hs
    rcases List.mem_cons.mp hs with rfl | hs
    · exact Nat.lt_of_lt_of_le hlt (Nat.sub_le _ _)
    · exact hstores s hs
  | case2 p i hend =>
    refine ⟨?_, hi⟩
    intro s hs
    cases hs

theorem strlen_named (p : List Byte) :
    strlen (storeAll p (if byteAt p 0 = 0 then [⟨0, ascii '.'⟩, ⟨1, 0⟩] else [])) ≤
      max (strlen p) 1 := by
  split_ifs with hempty
  · match p with
    | [] => exact Nat.zero_le _
    | [c] => exact Nat.le_max_right _ _
    | c :: d :: p => exact Nat.le_max_right _ _
  · exact Nat.le_max_left _ _

theorem pathnameStores_inside (p : List Byte) :
    ∀ s ∈ pathnameStores p, s.offset ≤ max (strlen p) 1 := by
  intro s hs
  have hnamed := strlen_named p
  unfold pathnameStores at hs
  dsimp only at hs
  rw [convertStores_eq] at hs
  rcases List.mem_append.mp hs with hs | hs
  · rcases List.mem_append.mp hs with hs | hs
    · split_ifs at hs with hempty
      · simp only [List.mem_cons, List.not_mem_nil, or_false] at hs
        rcases hs with rfl | rfl
        · exact Nat.zero_le _
        · exact Nat.le_max_right _ _
      · cases hs
    · exact Nat.le_of_lt (Nat.lt_of_lt_of_le (convertStores_inside s hs) hnamed)
  · rw [← strlen_convertLoop _ 0] at hnamed
    generalize convertLoop _ 0 = converted at hs hnamed
    obtain ⟨hstores, hlast⟩ := shiftStores_inside (Nat.zero_le (strlen converted - 1))
    split_ifs at hs with hslash
    · rcases List.mem_append.mp hs with hs | hs
      · exact Nat.le_of_lt (Nat.lt_of_lt_of_le (hstores s hs) hnamed)
      · rw [List.mem_singleton.mp hs]
        exact Nat.le_trans hlast (Nat.le_trans (Nat.sub_le _ _) hnamed)
    · cases hs

/-! ## The path -/

theorem hostPath_length_le (s : List Byte) : (hostPath s).length ≤ max s.length 1 := by
  cases s with
  | nil => exact Nat.le_refl 1
  | cons c t =>
    rw [hostPath_cons]
    split_ifs
    · rw [List.length_map]
      exact Nat.le_trans (Nat.le_succ _) (Nat.le_max_left _ _)
    · rw [List.length_cons, List.length_map]
      exact Nat.le_max_left _ _

theorem hostPath_ne_nil (s : List Byte) : hostPath s ≠ [] := by
  cases s with
  | nil => decide
  | cons c t =>
    rw [hostPath_cons]
    split_ifs with hslash
    · intro hnil
      exact hslash.2 (List.map_eq_nil_iff.mp hnil)
    · exact List.cons_ne_nil _ _

theorem backslash_notMem_map (s : List Byte) : ascii '\\' ∉ s.map convertByte := by
  intro hmem
  obtain ⟨b, -, hb⟩ := List.mem_map.mp hmem
  unfold convertByte at hb
  split_ifs at hb with hback
  · exact absurd hb (by decide)
  · exact hback hb

theorem hostPath_no_backslash (s : List Byte) : ascii '\\' ∉ hostPath s := by
  cases s with
  | nil => decide
  | cons c t =>
    have hmap := backslash_notMem_map (c :: t)
    rw [List.map_cons] at hmap
    rw [hostPath_cons]
    split_ifs
    · exact fun hmem => hmap (List.mem_cons_of_mem _ hmem)
    · exact hmap

/-- Where a null is, it comes right behind the string. -/
theorem cstr_null_isPrefix {m : List Byte} (hm : 0 ∈ m) : cstr m ++ [0] <+: m := by
  refine ⟨m.drop (strlen m + 1), ?_⟩
  rw [List.append_assoc]
  exact cstr_split hm

theorem strlen_lt_length {m : List Byte} (hm : 0 ∈ m) : strlen m < m.length := by
  have hle := (cstr_null_isPrefix hm).length_le
  rw [List.length_append, List.length_singleton] at hle
  exact hle

/-- The path has its null in the field. -/
theorem zero_mem_fixPathname {p : List Byte} (hsize : 2 ≤ p.length) (hp : 0 ∈ p) :
    0 ∈ fixPathname p := by
  by_contra hno
  have hwhole := cstr_fixPathname p
  rw [cstr_eq_self hno] at hwhole
  have hlong := congrArg List.length hwhole
  have hfield : (fixPathname p).length = p.length := by
    rw [← pathnameStores_eq hsize, storeAll_length]
  have hshort := hostPath_length_le (cstr p)
  have hroom := strlen_lt_length hp
  rw [strlen] at hroom
  omega

/-- `fix_pathname` on a field of 256 bytes with a string: the string becomes its host path, in place,
and nothing behind the string is written, except for the null of the default. -/
theorem pathname_fixed {p : List Byte} (hsize : p.length = 256) (hp : 0 ∈ p) : PathnameFixed p := by
  have htwo : 2 ≤ p.length := by omega
  have hstores := pathnameStores_eq htwo
  constructor
  · exact hstores
  · exact pathnameStores_inside p
  · rw [← hstores, storeAll_length]
  · rw [← cstr_fixPathname]
    exact cstr_null_isPrefix (zero_mem_fixPathname htwo hp)
  · exact hostPath_ne_nil _
  · exact hostPath_no_backslash _

/-- The path `\dir\a`. -/
theorem pathname_fixed_slash :
    let p := literal "\\dir\\a" ++ 0 :: List.replicate 249 0
    hostPath (cstr p) = literal "dir/a" ∧ PathnameFixed p := by
  intro p
  have hstring : cstr p = literal "\\dir\\a" := cstr_append_zero (by decide) _
  have hsize : p.length = 256 := by
    rw [List.length_append, List.length_cons, List.length_replicate]
    rfl
  rw [hstring]
  exact ⟨by decide, pathname_fixed hsize (List.mem_append_right _ List.mem_cons_self)⟩

end Utility

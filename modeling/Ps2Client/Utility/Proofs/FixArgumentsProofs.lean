import Ps2Client.Utility.FixArguments

/-!
# Proofs: `fix_pathname` computes `hostPath`

Both loops measure the string they are changing on every turn. A byte that is converted or moved
is not a null byte, so the length stays what it was, and each loop ends at the place where it ends
on the string it started with.
-/

namespace Utility

open CMemory

theorem convertByte_ne_zero {c : Byte} (h : c ≠ 0) : convertByte c ≠ 0 := by
  unfold convertByte
  split
  · decide
  · exact h

/-- The length of a string whose terminator, or the end of memory, starts `tail`. -/
theorem strlen_append {s tail : List Byte} (hs : 0 ∉ s) (htail : cstr tail = []) :
    strlen (s ++ tail) = s.length := by
  rw [strlen, cstr_append_of_notMem hs, htail, List.append_nil]

theorem byteAt_middle (pre : List Byte) (c : Byte) (s : List Byte) :
    byteAt (pre ++ c :: s) pre.length = c := by
  have h := byteAt_append_right pre (c :: s) 0
  rw [Nat.add_zero, byteAt_cons_zero] at h
  exact h

theorem set_middle (pre : List Byte) (c d : Byte) (s : List Byte) :
    (pre ++ c :: s).set pre.length d = pre ++ d :: s := by
  simp [List.set_append_right]

/-- The first loop, from a position in the string on. -/
theorem convertLoop_spec (s : List Byte) : ∀ (pre tail : List Byte), 0 ∉ pre → 0 ∉ s →
    cstr tail = [] → convertLoop (pre ++ s ++ tail) pre.length = pre ++ s.map convertByte ++ tail := by
  induction s with
  | nil =>
    intro pre tail hpre _ htail
    rw [List.append_nil, convertLoop, dif_neg (by rw [strlen_append hpre htail]; omega)]
    simp
  | cons c s ih =>
    intro pre tail hpre hs htail
    obtain ⟨hc, hs'⟩ : c ≠ 0 ∧ 0 ∉ s := by
      simp only [List.mem_cons, not_or] at hs
      exact ⟨fun h => hs.1 h.symm, hs.2⟩
    have hmem : 0 ∉ pre ++ c :: s := by
      simp only [List.mem_append, not_or]
      exact ⟨hpre, hs⟩
    have hlt : pre.length < strlen (pre ++ c :: s ++ tail) := by
      rw [strlen_append hmem htail]
      simp
    have hstep : (if byteAt (pre ++ c :: s ++ tail) pre.length = ascii '\\' then
        (pre ++ c :: s ++ tail).set pre.length (ascii '/') else pre ++ c :: s ++ tail) =
        pre ++ [convertByte c] ++ s ++ tail := by
      rw [List.append_assoc, List.cons_append, byteAt_middle, set_middle, convertByte]
      split <;> simp [*]
    have hpre' : 0 ∉ pre ++ [convertByte c] := by
      simp only [List.mem_append, List.mem_singleton, not_or]
      exact ⟨hpre, fun h => convertByte_ne_zero hc h.symm⟩
    have hlen : (pre ++ [convertByte c]).length = pre.length + 1 := by simp
    rw [convertLoop, dif_pos hlt, hstep, ← hlen, ih _ tail hpre' hs' htail]
    simp

/-- The second loop and the terminator written behind it, from a position in the string on: the
byte at that position is dropped. -/
theorem shiftLoop_spec (s : List Byte) : ∀ (pre : List Byte) (c : Byte) (tail : List Byte),
    0 ∉ pre ++ c :: s → cstr tail = [] →
    (shiftLoop (pre ++ c :: s ++ tail) pre.length).1.set
      (shiftLoop (pre ++ c :: s ++ tail) pre.length).2 0 = pre ++ s ++ 0 :: tail := by
  induction s with
  | nil =>
    intro pre c tail hmem htail
    rw [shiftLoop, dif_neg (by rw [strlen_append hmem htail]; simp)]
    rw [List.append_assoc]
    exact (set_middle pre c 0 tail).trans (by simp)
  | cons d s ih =>
    intro pre c tail hmem htail
    have hlt : pre.length < strlen (pre ++ c :: d :: s ++ tail) - 1 := by
      rw [strlen_append hmem htail]
      simp
    have hbyte : byteAt (pre ++ c :: d :: s ++ tail) (pre.length + 1) = d := by
      rw [List.append_assoc, byteAt_append_right, List.cons_append, byteAt_cons_succ,
        List.cons_append, byteAt_cons_zero]
    have hstep : (pre ++ c :: d :: s ++ tail).set pre.length d =
        pre ++ [d] ++ d :: s ++ tail := by
      rw [List.append_assoc, List.cons_append, set_middle]
      simp
    have hmem' : 0 ∉ pre ++ [d] ++ d :: s := by
      simp only [List.mem_append, List.mem_cons, List.not_mem_nil, or_false, not_or] at hmem ⊢
      exact ⟨⟨hmem.1, hmem.2.2.1⟩, hmem.2.2⟩
    have hlen : (pre ++ [d]).length = pre.length + 1 := by simp
    rw [shiftLoop, dif_pos hlt, hbyte, hstep, ← hlen, ih _ _ tail hmem' htail]
    simp

/-- Where a string is empty, there is a null byte or the end of memory. -/
theorem byteAt_zero_of_cstr_nil {tail : List Byte} (htail : cstr tail = []) :
    byteAt tail 0 = 0 := by
  cases tail with
  | nil => rfl
  | cons b tail =>
    rw [cstr_cons] at htail
    rw [byteAt_cons_zero]
    by_contra hb
    rw [if_neg hb] at htail
    cases htail

/-- The host path of a non-empty string. -/
theorem hostPath_cons (c : Byte) (t : List Byte) :
    hostPath (c :: t) = if convertByte c = ascii '/' ∧ t ≠ [] then t.map convertByte
      else convertByte c :: t.map convertByte := by
  cases t with
  | nil => simp [hostPath]
  | cons d t => simp [hostPath]

/-- `fix_pathname` on a non-empty string: the host path, its terminator if a slash was dropped, and
the memory behind the string as it was. -/
theorem fixPathname_cons {c : Byte} {t tail : List Byte} (hs : 0 ∉ c :: t)
    (htail : cstr tail = []) :
    fixPathname (c :: t ++ tail) = hostPath (c :: t) ++
      (if convertByte c = ascii '/' ∧ t ≠ [] then 0 :: tail else tail) := by
  have hc : c ≠ 0 := fun h => hs (by simp [h])
  have hconv : convertLoop (c :: t ++ tail) 0 =
      convertByte c :: (t.map convertByte ++ tail) := by
    have h := convertLoop_spec (c :: t) [] tail (by simp) hs htail
    simpa using h
  have hmapmem : 0 ∉ convertByte c :: t.map convertByte := by
    intro h
    rw [← List.map_cons] at h
    obtain ⟨b, hb, hb0⟩ := List.mem_map.mp h
    exact convertByte_ne_zero (fun h0 => hs (h0 ▸ hb)) hb0
  have hfirst : ¬ byteAt (c :: t ++ tail) 0 = 0 := by
    rw [List.cons_append, byteAt_cons_zero]
    exact hc
  have hsecond : byteAt (convertByte c :: (t.map convertByte ++ tail)) 1 ≠ 0 ↔ t ≠ [] := by
    rw [byteAt_cons_succ]
    cases t with
    | nil => simp [byteAt_zero_of_cstr_nil htail]
    | cons d t =>
      rw [List.map_cons, List.cons_append, byteAt_cons_zero]
      exact iff_of_true (fun h => hmapmem (by simp [h])) (by simp)
  simp only [fixPathname]
  rw [if_neg hfirst, hconv, byteAt_cons_zero, hostPath_cons]
  by_cases hslash : convertByte c = ascii '/' ∧ t ≠ []
  · have h := shiftLoop_spec (t.map convertByte) [] (convertByte c) tail (by simpa using hmapmem)
      htail
    simp only [List.nil_append, List.length_nil, List.cons_append] at h
    rw [if_pos ⟨hslash.1, hsecond.mpr hslash.2⟩, if_pos hslash, if_pos hslash, h]
  · rw [if_neg (fun h => hslash ⟨h.1, hsecond.mp h.2⟩), if_neg hslash, if_neg hslash,
      List.cons_append]

/-- `fix_pathname` on the empty string. -/
theorem fixPathname_nil {tail : List Byte} (htail : cstr tail = []) :
    fixPathname tail = ascii '.' :: 0 :: tail.drop 2 := by
  have hconv : convertLoop (ascii '.' :: 0 :: tail.drop 2) 0 = ascii '.' :: 0 :: tail.drop 2 := by
    have h := convertLoop_spec [ascii '.'] [] (0 :: tail.drop 2) (by simp) (by decide)
      (by rw [cstr_cons, if_pos rfl])
    simpa [convertByte, ascii] using h
  simp only [fixPathname]
  rw [if_pos (byteAt_zero_of_cstr_nil htail), poke_zero]
  simp only [List.length_cons, List.length_nil, List.cons_append, List.nil_append]
  rw [hconv, if_neg (by simp [ascii])]

/-- The host path of a string without null bytes has none. -/
theorem hostPath_notMem {s : List Byte} (hs : 0 ∉ s) : 0 ∉ hostPath s := by
  cases s with
  | nil => decide
  | cons c t =>
    have hmap : 0 ∉ (c :: t).map convertByte := by
      intro h
      obtain ⟨b, hb, hb0⟩ := List.mem_map.mp h
      exact convertByte_ne_zero (fun h0 => hs (h0 ▸ hb)) hb0
    rw [List.map_cons] at hmap
    rw [hostPath_cons]
    split
    · exact fun h => hmap (List.mem_cons_of_mem _ h)
    · exact hmap

/-- `fix_pathname` leaves the host path of the string it was given. -/
theorem cstr_fixPathname (p : List Byte) : cstr (fixPathname p) = hostPath (cstr p) := by
  have hsplit : p = cstr p ++ p.dropWhile (· ≠ 0) := List.takeWhile_append_dropWhile.symm
  have htail : cstr (p.dropWhile (· ≠ 0)) = [] := cstr_dropWhile p
  cases hs : cstr p with
  | nil =>
    rw [fixPathname_nil hs, cstr_cons, if_neg (by decide), cstr_cons, if_pos rfl]
    rfl
  | cons c t =>
    have hmem : 0 ∉ c :: t := hs ▸ zero_notMem_cstr p
    have hfix := fixPathname_cons hmem htail
    rw [← hs, ← hsplit, hs] at hfix
    rw [hfix, cstr_append_of_notMem (hostPath_notMem hmem)]
    split
    · rw [cstr_cons, if_pos rfl, List.append_nil]
    · rw [htail, List.append_nil]

end Utility

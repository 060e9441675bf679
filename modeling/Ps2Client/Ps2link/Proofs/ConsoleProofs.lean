import Ps2Client.Ps2link.Console
import Ps2Client.CMemory.Proofs.BytesProofs
import Ps2Client.CMemory.Proofs.CStringProofs

/-!
# Proofs: the marker is looked for in what the buffer keeps of each line

The state of the scanner is determined by the bytes of the unfinished line alone: the buffer holds
`retained` of them, however long the line is and however the stream is cut into packets.
-/

namespace Ps2link

open CMemory

/-! ## The line buffer -/

/-- The buffer holds the text `p`. -/
structure Console.Holds (c : Console) (p : List Byte) : Prop where
  length : c.length = p.length
  short : p.length ≤ 4095
  text : c.line.take p.length = p
  size : c.line.length = 4096
  noNul : 0 ∉ p

/-- The status that has been recorded. -/
def Console.record (c : Console) : Option Int := if c.seen then some c.status else none

/-- A line of at most 4095 bytes is kept whole. -/
theorem retainedLength_short {n : Nat} (hn : n ≤ 4095) : retainedLength n = n := if_pos hn

/-- Of a longer line the last 256 bytes stay each time the buffer is full. -/
theorem retainedLength_long {n : Nat} (hn : 4096 ≤ n) :
    retainedLength n = 257 + (n - 4096) % 3839 := if_neg (by omega)

/-- What is kept fits the buffer with its null. -/
theorem retainedLength_le (n : Nat) : retainedLength n ≤ n ∧ retainedLength n ≤ 4095 := by
  rcases Nat.lt_or_ge n 4096 with hn | hn
  · rw [retainedLength_short (by omega)]
    omega
  · rw [retainedLength_long hn]
    omega

/-- One more byte is added to what is kept, or to the last 256 bytes of it. -/
theorem retainedLength_succ (n : Nat) :
    retainedLength (n + 1) = if retainedLength n = 4095 then 257 else retainedLength n + 1 := by
  rcases Nat.lt_trichotomy n 4095 with hn | hn | hn
  · rw [retainedLength_short (by omega), retainedLength_short (by omega), if_neg (by omega)]
  · rw [hn]
    decide
  · rw [retainedLength_long hn, retainedLength_long (by omega),
      show n + 1 - 4096 = n - 4096 + 1 by omega]
    split <;> omega

theorem retained_length (p : List Byte) : (retained p).length = retainedLength p.length := by
  have := retainedLength_le p.length
  rw [retained, List.length_drop]
  omega

@[simp] theorem retained_nil : retained [] = [] := rfl

/-- One more byte of a line, when the buffer is full. -/
theorem retained_full {p : List Byte} (b : Byte) (hfull : (retained p).length = 4095) :
    retained (p ++ [b]) = (retained p).drop (4095 - 256) ++ [b] := by
  rw [retained_length] at hfull
  have hle := retainedLength_le p.length
  rw [retained, retained, List.length_append, List.length_singleton, retainedLength_succ,
    if_pos hfull, List.drop_drop, List.drop_append_of_le_length (by omega), hfull,
    show p.length + 1 - 257 = p.length - 4095 + (4095 - 256) by omega]

/-- One more byte of a line, when there is room in the buffer. -/
theorem retained_room {p : List Byte} (b : Byte) (hroom : (retained p).length ≠ 4095) :
    retained (p ++ [b]) = retained p ++ [b] := by
  rw [retained_length] at hroom
  have hle := retainedLength_le p.length
  rw [retained, retained, List.length_append, List.length_singleton, retainedLength_succ,
    if_neg hroom, List.drop_append_of_le_length (by omega),
    show p.length + 1 - (retainedLength p.length + 1) = p.length - retainedLength p.length by omega]

/-- With a null behind it, the buffer is the string of the part kept. -/
theorem cstr_terminated {c : Console} {p : List Byte} (hc : c.Holds p) :
    cstr (poke c.line c.length [0]) = p := by
  rw [poke, hc.length, hc.text, List.append_assoc]
  exact cstr_append_zero hc.noNul _

theorem poke_length_inside {m bs : List Byte} {off : Nat} (h : off + bs.length ≤ m.length) :
    (poke m off bs).length = m.length := by
  simp only [poke, List.length_append, List.length_take, List.length_drop]
  omega

theorem take_poke {m : List Byte} {off : Nat} (bs : List Byte) (h : off ≤ m.length) :
    (poke m off bs).take off = m.take off := by
  rw [poke, List.append_assoc, List.take_left' (List.length_take_of_le h)]

/-- The check of a line records its status, unless one was recorded before. -/
theorem checkLine_holds (marker : List Byte) {c : Console} {p : List Byte} (hc : c.Holds p) :
    (checkLine marker c).Holds p ∧
      (checkLine marker c).record = c.record.or (lineStatus marker p) := by
  have hshort := hc.short
  have hsize := hc.size
  have hlength := hc.length
  have hline : (poke c.line c.length [0]).length = 4096 := by
    rw [poke_length_inside (by simp; omega), hsize]
  have htext : (poke c.line c.length [0]).take p.length = p := by
    rw [← hlength, take_poke _ (by omega), hlength, hc.text]
  have hcstr := cstr_terminated hc
  unfold checkLine
  dsimp only
  by_cases hseen : c.seen = true
  · rw [if_pos hseen]
    refine ⟨⟨hlength, hshort, htext, hline, hc.noNul⟩, ?_⟩
    simp [Console.record, hseen]
  · rw [if_neg hseen, hcstr, lineStatus]
    cases strstr p marker with
    | none =>
      refine ⟨⟨hlength, hshort, htext, hline, hc.noNul⟩, ?_⟩
      simp [Console.record, hseen]
    | some found =>
      refine ⟨⟨hlength, hshort, htext, hline, hc.noNul⟩, ?_⟩
      simp [Console.record, hseen]

/-- A full buffer keeps its last 256 bytes, and the record. -/
theorem makeRoom_holds {c : Console} {p : List Byte} (hc : c.Holds p) :
    (makeRoom c).Holds (if p.length = 4095 then p.drop (4095 - 256) else p) ∧
      (makeRoom c).record = c.record := by
  have hsize := hc.size
  have hlength := hc.length
  unfold makeRoom
  rw [hlength]
  split
  · rename_i hfull
    have hkeep : peek c.line (p.length - 256) 256 = p.drop (4095 - 256) := by
      rw [peek_eq_take_drop (by omega), ← hc.text, hfull, List.drop_take, List.length_take, hsize]
      rfl
    have hlen : (p.drop (4095 - 256)).length = 256 := by
      rw [List.length_drop, hfull]
    refine ⟨⟨hlen.symm, by omega, ?_, ?_, fun h0 => hc.noNul (List.mem_of_mem_drop h0)⟩, rfl⟩
    · rw [hkeep, poke_zero, List.take_left]
    · rw [hkeep, poke_length_inside (by omega), hsize]
  · exact ⟨hc, rfl⟩

/-- A byte that is part of a line. -/
theorem scanByte_visible (marker : List Byte) {c : Console} {p : List Byte} {b : Byte}
    (hc : c.Holds (retained p)) (hlf : b ≠ LF) (hskip : ¬ (b = CR ∨ b = 0)) :
    (scanByte marker c b).Holds (retained (p ++ [b])) ∧ (scanByte marker c b).record = c.record := by
  obtain ⟨hroom, hrecord⟩ := makeRoom_holds hc
  have hnext : ∃ q : List Byte, (makeRoom c).Holds q ∧ q.length ≤ 4094 ∧
      retained (p ++ [b]) = q ++ [b] := by
    have hshort := hc.short
    split at hroom
    · rename_i hfull
      refine ⟨_, hroom, ?_, retained_full b hfull⟩
      rw [List.length_drop, hfull]
      decide
    · rename_i hnot
      exact ⟨_, hroom, by omega, retained_room b hnot⟩
  obtain ⟨q, hq, hlen, heq⟩ := hnext
  have hsize := hq.size
  have hlength := hq.length
  unfold scanByte
  rw [if_neg hlf, if_neg hskip, heq]
  dsimp only
  refine ⟨⟨?_, ?_, ?_, ?_, ?_⟩, hrecord⟩
  · rw [List.length_append, ← hlength]
    rfl
  · rw [List.length_append, List.length_singleton]
    omega
  · rw [hlength, poke, hq.text, List.length_append, List.length_singleton]
    exact List.take_left' (by simp)
  · rw [poke_length_inside (by simp; omega), hsize]
  · simp only [List.mem_append, List.mem_singleton, not_or]
    exact ⟨hq.noNul, fun h0 => hskip (.inr h0.symm)⟩

/-! ## The stream -/

theorem getLastD_of_ne_nil {α : Type} {l : List α} (hl : l ≠ []) (a b : α) :
    l.getLastD a = l.getLastD b := by
  cases l with
  | nil => exact absurd rfl hl
  | cons x l => rfl

/-- What the scanner knows after `p` of an unfinished line and the stream `s`. -/
theorem foldl_scanByte (marker : List Byte) (s : List Byte) : ∀ (p : List Byte) (c : Console),
    LF ∉ p → c.Holds (retained p) →
    (s.foldl (scanByte marker) c).Holds (retained (((p ++ visible s).splitOn LF).getLastD [])) ∧
      (s.foldl (scanByte marker) c).record = c.record.or
        (((p ++ visible s).splitOn LF).dropLast.findSome? fun l =>
          lineStatus marker (retained l)) := by
  induction s with
  | nil =>
    intro p c hp hc
    rw [visible, List.filter_nil, List.append_nil, List.splitOn_eq_singleton hp]
    exact ⟨hc, by simp⟩
  | cons b s ih =>
    intro p c hp hc
    rw [List.foldl_cons]
    by_cases hlf : b = LF
    · obtain ⟨hcheck, hrecord⟩ := checkLine_holds marker hc
      have hvis : visible (b :: s) = LF :: visible s := by
        rw [visible, hlf]
        exact List.filter_cons_of_pos (by decide)
      have hnil : (scanByte marker c b).Holds (retained []) := by
        unfold scanByte
        rw [if_pos hlf]
        exact ⟨rfl, by decide, rfl, hcheck.size, by decide⟩
      have hrec : (scanByte marker c b).record = c.record.or (lineStatus marker (retained p)) := by
        unfold scanByte
        rw [if_pos hlf]
        exact hrecord
      obtain ⟨hopen, hlines⟩ := ih [] _ (by simp) hnil
      have hne := List.splitOn_ne_nil LF (visible s)
      rw [List.nil_append] at hopen hlines
      rw [hvis, List.splitOn_append_cons_self_of_not_mem hp, List.dropLast_cons_of_ne_nil hne,
        hlines, hrec, List.findSome?_cons]
      refine ⟨?_, ?_⟩
      · rwa [List.getLastD_cons, getLastD_of_ne_nil hne _ []]
      · cases lineStatus marker (retained p) <;> simp
    · by_cases hskip : b = CR ∨ b = 0
      · have hvis : visible (b :: s) = visible s :=
          List.filter_cons_of_neg (by rcases hskip with rfl | rfl <;> decide)
        have hsame : scanByte marker c b = c := by
          unfold scanByte
          rw [if_neg hlf, if_pos hskip]
        rw [hvis, hsame]
        exact ih p c hp hc
      · have hvis : visible (b :: s) = b :: visible s :=
          List.filter_cons_of_pos (by simpa [not_or] using hskip)
        obtain ⟨hnext, hrecord⟩ := scanByte_visible marker hc hlf hskip
        have hp' : LF ∉ p ++ [b] := by
          simp only [List.mem_append, List.mem_singleton, not_or]
          exact ⟨hp, fun heq => hlf heq.symm⟩
        have hstep := ih (p ++ [b]) _ hp' hnext
        rw [hrecord, List.append_assoc] at hstep
        rw [hvis]
        exact hstep

/-- The packets are scanned as one stream of bytes. -/
theorem scanPackets_flatten (marker : List Byte) (packets : List (List Byte)) (c : Console) :
    scanPackets (some marker) packets c = packets.flatten.foldl (scanByte marker) c := by
  induction packets generalizing c with
  | nil => rfl
  | cons packet packets ih =>
    rw [List.flatten_cons, List.foldl_append]
    exact ih _

/-- Without a marker nothing is scanned. -/
theorem scanPackets_none (packets : List (List Byte)) (c : Console) :
    scanPackets none packets c = c := by
  induction packets with
  | nil => rfl
  | cons packet packets ih => exact ih

/-- At the start, the buffer holds the empty line. -/
theorem initial_holds : Console.initial.Holds (retained []) :=
  ⟨rfl, by decide, rfl, List.length_replicate, by decide⟩

/-- After any packets the buffer holds the end of the unfinished line, and the status of the first
line in which the marker was found is recorded. -/
theorem scanPackets_holds (marker : List Byte) (packets : List (List Byte)) :
    (scanPackets (some marker) packets .initial).Holds (retained (openLine packets.flatten)) ∧
      (scanPackets (some marker) packets .initial).record =
        (consoleLines packets.flatten).findSome? fun l => lineStatus marker (retained l) := by
  rw [scanPackets_flatten]
  have hscan := foldl_scanByte marker packets.flatten [] .initial (by simp) initial_holds
  rw [List.nil_append] at hscan
  exact hscan

/-- A line has a status exactly when it has the marker. -/
theorem lineStatus_isSome_iff (marker line : List Byte) :
    (lineStatus marker line).isSome ↔ marker <:+: line := by
  rw [lineStatus, Option.isSome_map]
  exact strstr_isSome_iff line marker

theorem Console.record_eq_some {c : Console} {status : Int} (hc : c.record = some status) :
    c.seen = true ∧ c.status = status := by
  unfold Console.record at hc
  split at hc
  · rename_i hseen
    exact ⟨hseen, Option.some.inj hc⟩
  · cases hc

/-- There is a record exactly when the marker was seen. -/
theorem Console.record_isSome (c : Console) : c.record.isSome = c.seen := by
  unfold Console.record
  cases c.seen <;> rfl

/-- For every marker and all packets, the marker is seen if and only if it is in what the buffer
keeps of some line, and the status is the one of the first such line. -/
theorem marker_detection (marker : List Byte) (packets : List (List Byte)) :
    ((scanPackets (some marker) packets .initial).seen = true ↔
      ∃ line ∈ consoleLines packets.flatten, marker <:+: retained line) ∧
    ∀ before line after, consoleLines packets.flatten = before ++ line :: after →
      (∀ l ∈ before, ¬ marker <:+: retained l) → marker <:+: retained line →
      lineStatus marker (retained line) =
        some (scanPackets (some marker) packets .initial).status := by
  obtain ⟨-, hrecord⟩ := scanPackets_holds marker packets
  refine ⟨?_, ?_⟩
  · rw [← Console.record_isSome, hrecord, List.findSome?_isSome_iff]
    constructor
    · rintro ⟨line, hline, hfound⟩
      exact ⟨line, hline, (lineStatus_isSome_iff ..).mp hfound⟩
    · rintro ⟨line, hline, hfound⟩
      exact ⟨line, hline, (lineStatus_isSome_iff ..).mpr hfound⟩
  · intro before line after hlines hbefore hline
    obtain ⟨status, hstatus⟩ := Option.isSome_iff_exists.mp ((lineStatus_isSome_iff ..).mpr hline)
    have hnone : (before.findSome? fun l => lineStatus marker (retained l)) = none := by
      rw [List.findSome?_eq_none_iff]
      intro l hl
      rw [← Option.not_isSome_iff_eq_none, lineStatus_isSome_iff]
      exact hbefore l hl
    rw [hlines, List.findSome?_append, hnone, Option.none_or, List.findSome?_cons, hstatus] at hrecord
    rw [(Console.record_eq_some hrecord).2]
    exact hstatus

/-- A line of 4096 bytes, which does not fit the buffer, with an `M` at its start. -/
def longLine : List Byte := ascii 'M' :: List.replicate 4095 (ascii 'a')

/-- A line of 4096 bytes, and nothing behind it. -/
theorem consoleLines_longLine :
    consoleLines (longLine ++ [LF]) = [longLine] ∧ openLine (longLine ++ [LF]) = [] := by
  have hmem : ∀ b ∈ longLine, b = ascii 'M' ∨ b = ascii 'a' := by
    intro b hb
    exact (List.mem_cons.mp hb).imp id List.eq_of_mem_replicate
  have hlf : LF ∉ longLine := by
    intro h0
    rcases hmem LF h0 with h | h <;> exact absurd h (by decide)
  have hvis : visible (longLine ++ [LF]) = longLine ++ [LF] := by
    refine List.filter_eq_self.mpr ?_
    intro b hb
    rcases List.mem_append.mp hb with hb | hb
    · rcases hmem b hb with rfl | rfl <;> decide
    · rw [List.mem_singleton.mp hb]
      decide
  rw [consoleLines, openLine, hvis, List.splitOn_append_cons_self_of_not_mem hlf]
  exact ⟨rfl, rfl⟩

/-- What the buffer keeps of the line no longer has its first byte. -/
theorem lineStatus_longLine : lineStatus [ascii 'M'] (retained longLine) = none := by
  have hlen : longLine.length = 4096 := congrArg (· + 1) List.length_replicate
  have hkept : retained longLine = List.replicate 257 (ascii 'a') := by
    rw [retained, hlen, show 4096 - retainedLength 4096 = 3838 + 1 by decide, longLine,
      List.drop_succ_cons, List.drop_replicate]
  rw [← Option.not_isSome_iff_eq_none, lineStatus_isSome_iff, hkept]
  intro hin
  have hM := hin.subset (List.mem_singleton_self (ascii 'M'))
  exact absurd (List.eq_of_mem_replicate hM) (by decide)

/-- A marker at the start of a line of 4096 bytes is not seen. -/
theorem marker_lost :
    let marker : List Byte := [ascii 'M']
    let line : List Byte := ascii 'M' :: List.replicate 4095 (ascii 'a')
    consoleLines [line ++ [LF]].flatten = [line] ∧ marker <:+: line ∧
      (scanPackets (some marker) [line ++ [LF]] .initial).seen = false := by
  intro marker line
  have hlines : consoleLines [line ++ [LF]].flatten = [line] := by
    rw [List.flatten_singleton]
    exact consoleLines_longLine.1
  refine ⟨hlines, ⟨[], _, rfl⟩, ?_⟩
  obtain ⟨-, hrecord⟩ := scanPackets_holds marker [line ++ [LF]]
  have hnone : lineStatus marker (retained line) = none := lineStatus_longLine
  rw [← Console.record_isSome, hrecord, hlines, List.findSome?_cons, hnone]
  rfl

end Ps2link

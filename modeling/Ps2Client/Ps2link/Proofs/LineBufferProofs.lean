import Ps2Client.Ps2link.Proofs.ConsoleProofs

/-!
# Proofs: the line buffer holds the end of the line

The buffer holds `retained` of the line so far, which is a suffix of it and has its last 257 bytes.
-/

namespace Ps2link

open CMemory

theorem retained_suffix (line : List Byte) : retained line <:+ line := List.drop_suffix _ _

theorem retained_whole {line : List Byte} (hshort : line.length ≤ 4095) : retained line = line := by
  rw [retained, retainedLength_short hshort, Nat.sub_self]
  rfl

/-- The last 257 bytes of a line are in the buffer. -/
theorem last_suffix_retained (line : List Byte) :
    line.drop (line.length - 257) <:+ retained line := by
  have hle : line.length - retainedLength line.length ≤ line.length - 257 := by
    rcases Nat.lt_or_ge line.length 4096 with hshort | hlong
    · rw [retainedLength_short (by omega)]
      omega
    · rw [retainedLength_long hlong]
      omega
  rw [retained, show line.length - 257 = (line.length - retainedLength line.length) +
    (line.length - 257 - (line.length - retainedLength line.length)) by omega, ← List.drop_drop]
  exact List.drop_suffix _ _

/-- The check finds what is in the buffer. -/
theorem checkLine_seen (marker : List Byte) {c : Console} {p : List Byte} (hc : c.Holds p) :
    (checkLine marker c).seen = true ↔ c.seen = true ∨ marker <:+: p := by
  obtain ⟨-, hrecord⟩ := checkLine_holds marker hc
  rw [← Console.record_isSome, hrecord, Option.isSome_or, Bool.or_eq_true, Console.record_isSome,
    lineStatus_isSome_iff]

theorem scanByte_newline (marker : List Byte) (c : Console) :
    (scanByte marker c LF).seen = (checkLine marker c).seen := by
  rw [scanByte, if_pos rfl]

theorem lineKept_of_holds (marker : List Byte) {line : List Byte} {c : Console}
    (hc : c.Holds (retained line)) : LineKept marker line c := by
  have htext : c.line.take c.length = retained line := by
    rw [hc.length]
    exact hc.text
  have hlength : c.length ≤ 4095 := by
    rw [hc.length]
    exact hc.short
  constructor
  · exact hlength
  · rw [hc.size]
    omega
  · rw [htext]
    exact retained_suffix line
  · intro hshort
    rw [htext]
    exact retained_whole hshort
  · intro hlong
    rw [hc.length, retained_length, retainedLength_long hlong]
    omega
  · exact scanByte_newline marker c
  · intro hseen
    rcases (checkLine_seen marker hc).mp hseen with hold | hfound
    · exact Or.inl hold
    · exact Or.inr (hfound.trans (retained_suffix line).isInfix)
  · intro hlast
    have hfound := hlast.trans (last_suffix_retained line).isInfix
    exact (checkLine_seen marker hc).mpr (Or.inr hfound)

/-- After any packets and the first bytes `part` of another one, the line buffer holds the line so far
as it is to. -/
theorem line_kept (marker : List Byte) (packets : List (List Byte)) (part : List Byte) :
    LineKept marker (openLine (packets.flatten ++ part))
      (part.foldl (scanByte marker) (scanPackets (some marker) packets .initial)) := by
  obtain ⟨hholds, -⟩ := scanPackets_holds marker (packets ++ [part])
  rw [List.flatten_append, List.flatten_singleton, scanPackets_flatten, List.flatten_append,
    List.flatten_singleton, List.foldl_append, ← scanPackets_flatten] at hholds
  exact lineKept_of_holds marker hholds

end Ps2link

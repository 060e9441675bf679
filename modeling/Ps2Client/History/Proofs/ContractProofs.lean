import Ps2Client.History.Contract
import Ps2Client.History.Proofs.PastProofs

/-!
# Proofs: contracts

The rules for a history that grows by one event.
-/

namespace History

variable {ε S : Type} {C : Contract ε S} {P Q : S → Prop} {history later : List ε}

@[simp] theorem Contract.state_nil : C.state [] = C.start := rfl

@[simp] theorem Contract.state_snoc (history : List ε) (ev : ε) :
    C.state (history ++ [ev]) = C.next (C.state history) ev := by
  simp [Contract.state]

theorem Contract.holds_nil (hstart : P C.start) : C.Holds P [] :=
  fun _ => ⟨always_nil _, hstart⟩

/-- One more event, of which the program can promise what it has to. -/
theorem Contract.Holds.snoc (hP : C.Holds P history) {ev : ε}
    (hev : ∀ s, P s → C.Assumes s ev → C.Guarantees s ev ∧ Q (C.next s ev)) :
    C.Holds Q (history ++ [ev]) := by
  intro hassumed
  obtain ⟨hbefore, hnow⟩ := (always_snoc _ _ _).mp hassumed
  obtain ⟨hmet, hs⟩ := hP hbefore
  obtain ⟨hguarantee, hnext⟩ := hev _ hs hnow
  refine ⟨(always_snoc _ _ _).mpr ⟨hmet, hguarantee⟩, ?_⟩
  rw [Contract.state_snoc]
  exact hnext

theorem Contract.Holds.mono (hP : C.Holds P history) (hPQ : ∀ s, P s → Q s) : C.Holds Q history :=
  fun hassumed => ⟨(hP hassumed).1, hPQ _ (hP hassumed).2⟩

theorem Contract.Assumed.front (hassumed : C.Assumed later) (hfront : history <+: later) :
    C.Assumed history := by
  obtain ⟨rest, rfl⟩ := hfront
  rintro before x after rfl
  exact hassumed before x (after ++ rest) (by simp)

/-- A part of the program that starts in any state with `P`, and ends as that state lets it. -/
theorem Contract.Holds.bind {R : S → S → Prop} (hP : C.Holds P history) (hfront : history <+: later)
    (hpart : ∀ s, P s → C.Holds (· = s) history → C.Holds (R s) later) :
    C.Holds (fun t => ∃ s, P s ∧ R s t) later := by
  intro hassumed
  obtain ⟨hmet, hs⟩ := hP (hassumed.front hfront)
  obtain ⟨hmet', hR⟩ := hpart _ hs (fun _ => ⟨hmet, rfl⟩) hassumed
  exact ⟨hmet', _, hs, hR⟩

/-- An event that changes nothing. -/
theorem Contract.Holds.stutter (hP : C.Holds P history) {ev : ε}
    (hev : ∀ s, P s → C.Guarantees s ev ∧ C.next s ev = s) : C.Holds P (history ++ [ev]) := by
  refine hP.snoc ?_
  intro s hs _
  obtain ⟨hguarantee, hnext⟩ := hev s hs
  rw [hnext]
  exact ⟨hguarantee, hs⟩

end History

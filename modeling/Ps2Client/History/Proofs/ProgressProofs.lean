import Ps2Client.History.Progress

/-!
# Proofs: progress of one party
-/

namespace History

variable {σ : Type} {own others : σ → σ → Prop} {P : σ → Prop} {rank : σ → Nat}

theorem Descends.run (hdown : Descends own others P rank) {n : Nat} {s t : σ}
    (hrun : Counted own others n s t) (hs : P s) : P t ∧ rank t ≤ rank s - n := by
  induction hrun with
  | refl => exact ⟨hs, Nat.le_refl _⟩
  | own _ hstep ih =>
    obtain ⟨ht, hrank⟩ := ih hs
    obtain ⟨hu, hlower⟩ := hdown.own _ _ ht hstep
    exact ⟨hu, by omega⟩
  | others _ hstep ih =>
    obtain ⟨ht, hrank⟩ := ih hs
    obtain ⟨hu, hlower⟩ := hdown.others _ _ ht hstep
    exact ⟨hu, Nat.le_trans hlower hrank⟩

/-- As many steps as the rank is high take the party to the lowest rank. -/
theorem Descends.reaches (hdown : Descends own others P rank) {n : Nat} {s t : σ}
    (hrun : Counted own others n s t) (hs : P s) (hrank : rank s ≤ n) : P t ∧ rank t = 0 := by
  obtain ⟨ht, hle⟩ := hdown.run hrun hs
  exact ⟨ht, by omega⟩

end History

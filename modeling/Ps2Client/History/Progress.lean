/-!
# Progress of one party

A run of several parties, in which the steps of one of them are counted. The others may take any
number of steps in between.
-/

namespace History

variable {σ : Type}

/-- A run from one state to another, in which one party takes `n` steps of its `own`. -/
inductive Counted (own others : σ → σ → Prop) : Nat → σ → σ → Prop where
  | refl (s : σ) : Counted own others 0 s s
  | own {n : Nat} {s t u : σ} (hrun : Counted own others n s t) (hstep : own t u) :
    Counted own others (n + 1) s u
  | others {n : Nat} {s t u : σ} (hrun : Counted own others n s t) (hstep : others t u) :
    Counted own others n s u

/-- In the states with `P`, which no step leaves, the steps of the party take it down a rank, and the
steps of the others do not take it up. -/
structure Descends (own others : σ → σ → Prop) (P : σ → Prop) (rank : σ → Nat) : Prop where
  own : ∀ s t, P s → own s t → P t ∧ rank t ≤ rank s - 1
  others : ∀ s t, P s → others s t → P t ∧ rank t ≤ rank s

end History

import Mathlib.Data.List.Basic

/-!
# Past-time properties of histories

A history is a list of events, the last one at its end.
-/

namespace History

variable {α : Type}

/-- There was an event with `P`, and all later ones have `Q`. -/
def Since (P Q : α → Prop) (history : List α) : Prop :=
  ∃ before x after, history = before ++ x :: after ∧ P x ∧ ∀ y ∈ after, Q y

/-- There was an event that has `P` with the history before it. -/
def Once (P : List α → α → Prop) (history : List α) : Prop :=
  ∃ before x after, history = before ++ x :: after ∧ P before x

/-- Every event has `P` with the history before it. -/
def Always (P : List α → α → Prop) (history : List α) : Prop :=
  ∀ before x after, history = before ++ x :: after → P before x

/-- No event has `Failed`, or, when the run is not `ok`, exactly the last one has. -/
def Straight (Failed : α → Prop) (ok : Bool) (history : List α) : Prop :=
  if ok then ∀ x ∈ history, ¬ Failed x
  else ∃ before x, history = before ++ [x] ∧ Failed x ∧ ∀ y ∈ before, ¬ Failed y

end History

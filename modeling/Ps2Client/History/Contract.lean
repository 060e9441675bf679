import Ps2Client.History.Past

/-!
# Contracts

The calls a program makes, with what they return, are a history. A contract says what the environment
promises of each event, and what the program does, in a state that the events so far have led to.
-/

namespace History

structure Contract (ε S : Type) where
  start : S
  next : S → ε → S
  /-- What the environment promises of an event. -/
  Assumes : S → ε → Prop
  /-- What the program promises of it. -/
  Guarantees : S → ε → Prop

variable {ε S : Type} (C : Contract ε S)

/-- The state after a history. -/
def Contract.state (history : List ε) : S := history.foldl C.next C.start

/-- The environment has kept its promises. -/
def Contract.Assumed (history : List ε) : Prop :=
  Always (fun before ev => C.Assumes (C.state before) ev) history

/-- The program has kept its promises. -/
def Contract.Met (history : List ε) : Prop :=
  Always (fun before ev => C.Guarantees (C.state before) ev) history

/-- If the environment has kept its promises, so has the program, and the state has `P`. -/
def Contract.Holds (P : S → Prop) (history : List ε) : Prop :=
  C.Assumed history → C.Met history ∧ P (C.state history)

end History

import Mathlib
import Ps2Client.Resetcheck.Observer

/-!
# Proofs: `resetcheck`
-/

namespace Resetcheck

variable (w : World) {deadline : Int} {fuel : Nat} {sawOutage : Bool} {o : Observer}

/-! ## The rounds of the loop -/

/-- The state after a round that does not end the loop. -/
def Observer.next (deadline : Int) (o : Observer) : Observer :=
  let (t, o) := (((o.timeMs w).2.run w .ping).2).timeMs w
  if t < deadline then o.sleepMs else o

theorem runs_append (a b : List Event) : runs (a ++ b) = runs a ++ runs b :=
  List.filterMap_append

/-- A round runs one child. -/
theorem runs_round {pause : List Event} (hpause : pause = [] ∨ pause = [.slept])
    (t status t' : Int) (events : List Event) :
    runs (.clock t :: .ran .ping status :: .clock t' :: (pause ++ events)) =
      (.ping, status) :: runs events := by
  rcases hpause with rfl | rfl
  · rfl
  · rfl

variable {events : List Event} {result : Option Int}

/-- The loop runs no child but `ping`. -/
theorem Polled.pings (h : Polled deadline sawOutage events result) :
    ∀ r ∈ runs events, r.1 = .ping := by
  induction h with
  | stopped sawOutage => exact nofun
  | late sawOutage ht => exact nofun
  | recovered ht =>
    intro r hr
    rw [List.eq_of_mem_singleton hr]
  | again ht hstatus hpause rest ih =>
    intro r hr
    rw [runs_round hpause] at hr
    rcases List.mem_cons.mp hr with rfl | hr
    · rfl
    · exact ih r hr

variable {timeout : Int}

end Resetcheck

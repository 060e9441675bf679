import Ps2Client.CMemory.Proofs.BoundedProofs
import Ps2Client.Main.Ping
import Ps2Client.Ps2link.Proofs.ConnectProofs

/-!
# Proofs: the time budget of `ping`
-/

namespace Main

open CMemory Network Ps2link

variable {σ : Type} (k : Kernel σ) (handshake : Int → σ → Int × σ)

/-! ## The limit -/

theorem limit?_eq {timeout : Int} (h : 1000 * timeout < 2 ^ 31) :
    limit? timeout = some (tryFor timeout) := by
  unfold limit? tryFor
  by_cases hpos : 0 < timeout
  · rw [if_pos hpos, if_pos hpos, Int.mul_comm timeout]
    exact int?_of_fits (by omega) h
  · rw [if_neg hpos, if_neg hpos]

theorem limit?_overflow {timeout : Int} (h : ¬ 1000 * timeout < 2 ^ 31) : limit? timeout = none := by
  unfold limit?
  rw [if_pos (by omega), Int.mul_comm]
  exact int?_of_overflow (Int.not_lt.mp h)

theorem tryFor_bounds {timeout : Int} (h : 1000 * timeout < 2 ^ 31) :
    0 ≤ tryFor timeout ∧ tryFor timeout < 2 ^ 31 := by
  unfold tryFor
  split_ifs
  · omega
  · decide

/-! ## Connecting -/

/-- Connecting takes no negative time. -/
theorem connectTime_nonneg (hostname : List Byte) (limit : Int) (n : Net σ) :
    0 ≤ connectTime k hostname limit n := by
  have hstart := (k.timeMs_now n.kernel).2
  have hconnected : (k.readClock n).1 ≤ k.now (connecting k hostname limit n).net.kernel :=
    kept_connect (now_kept k _) (now_keptByConnect k _ .stream limit)
      (now_keptByConnect k _ .dgram (-1)) hostname (what .ping) hstart
  have hend := (k.timeMs_now (connecting k hostname limit n).net.kernel).1
  exact Int.sub_nonneg.mpr (Int.le_trans hconnected hend)

/-- With a limit that is not negative, no `connect` waits forever. -/
theorem connecting_bounded (hostname : List Byte) {limit : Int} (hlimit : 0 ≤ limit) (st : σ) :
    Network.Bounded (connecting k hostname limit ⟨st, []⟩).net.calls :=
  kept_connect (bounded_kept k) (bounded_keptByConnect k (Or.inr hlimit))
    (bounded_keptByConnect k (Or.inl rfl)) hostname (what .ping) (History.always_nil _)

/-! ## The handshake -/

theorem pingHandshake_eq (limit budget : Int) (s : Sockets) (n : Net σ) :
    ∃ status message end', pingHandshake k handshake limit budget s n =
      (⟨limit, some budget, status, message⟩, end') ∧
      (Network.Bounded n.calls → Network.Bounded end'.calls) := by
  have hend := kept_disconnect (bounded_kept k) s
    (n := { n with kernel := (handshake budget n.kernel).2 })
  unfold pingHandshake
  dsimp only
  split_ifs
  · exact ⟨_, _, _, rfl, hend⟩
  · exact ⟨_, _, _, rfl, hend⟩

/-- The remaining time is exact as long as connecting took less than 2^31 milliseconds, and only
then. -/
theorem budget_eq_iff {limit elapsed : Int} (hlimit : 0 ≤ limit) (hfits : limit < 2 ^ 31)
    (helapsed : 0 ≤ elapsed) :
    int? (limit - toInt32 elapsed) = some (limit - elapsed) ↔ elapsed < 2 ^ 31 := by
  constructor
  · intro h
    rw [int?] at h
    split_ifs at h
    have hsame := Option.some.inj h
    rw [toInt32_eq] at hsame
    split_ifs at hsame <;> omega
  · intro hlt
    rw [toInt32_of_fits (by omega) hlt]
    exact int?_of_fits (by omega) (by omega)

/-! ## The budget -/

/-- `ping` with a timeout that is an `int` in milliseconds. -/
theorem ping_eq (hostname : List Byte) {timeout : Int} (htimeout : 1000 * timeout < 2 ^ 31)
    (n : Net σ) :
    let c := connecting k hostname (tryFor timeout) n
    ping k handshake hostname timeout n =
      if c.result ≠ 0 then some (⟨tryFor timeout, none, c.result, c.message⟩, c.net) else
        (int? (tryFor timeout - toInt32 (connectTime k hostname (tryFor timeout) n))).map fun budget =>
          pingHandshake k handshake (tryFor timeout) budget c.sockets (k.readClock c.net).2 := by
  intro c
  rw [ping, limit?_eq htimeout]
  rfl

/-- The time budget of `ping` is kept exactly when the timeout, in milliseconds, is an `int`, and so
is the time spent connecting when that succeeds. -/
theorem ping_budget_iff (hostname : List Byte) (timeout : Int) (st : σ) :
    BudgetKept k handshake hostname timeout st ↔
      1000 * timeout < 2 ^ 31 ∧
        ((connecting k hostname (tryFor timeout) ⟨st, []⟩).result = 0 →
          connectTime k hostname (tryFor timeout) ⟨st, []⟩ < 2 ^ 31) := by
  unfold BudgetKept
  dsimp only
  by_cases htimeout : 1000 * timeout < 2 ^ 31
  · obtain ⟨hlimit, hfits⟩ := tryFor_bounds htimeout
    have hbounded := connecting_bounded k hostname hlimit st
    have hiff := budget_eq_iff hlimit hfits
      (connectTime_nonneg k hostname (tryFor timeout) ⟨st, []⟩)
    rw [ping_eq k handshake hostname htimeout]
    set c := connecting k hostname (tryFor timeout) ⟨st, []⟩
    by_cases hresult : c.result = 0
    · rw [if_neg (not_not_intro hresult)]
      constructor
      · rintro ⟨run, end', hrun, heq, -, -, hbudget⟩
        obtain ⟨budget, hint, hgiven⟩ := Option.map_eq_some_iff.mp hrun
        obtain ⟨status, message, end'', hpair, -⟩ := pingHandshake_eq k handshake (tryFor timeout)
          budget c.sockets (k.readClock c.net).2
        rw [hpair] at hgiven
        obtain ⟨rfl, -⟩ := Prod.mk.inj hgiven
        have hbudget := hbudget.trans (if_pos hresult)
        exact ⟨htimeout, fun _ => hiff.mp (hint.trans hbudget)⟩
      · rintro ⟨-, hshort⟩
        obtain ⟨status, message, end', hpair, hend⟩ := pingHandshake_eq k handshake (tryFor timeout)
          (tryFor timeout - connectTime k hostname (tryFor timeout) ⟨st, []⟩) c.sockets
          (k.readClock c.net).2
        rw [hiff.mpr (hshort hresult), Option.map_some, hpair]
        exact ⟨_, _, rfl, rfl, hlimit, hend hbounded, (if_pos hresult).symm⟩
    · rw [if_pos hresult]
      refine iff_of_true ?_ ⟨htimeout, fun h => absurd h hresult⟩
      exact ⟨_, _, rfl, rfl, hlimit, hbounded, (if_neg hresult).symm⟩
  · refine iff_of_false ?_ fun h => htimeout h.1
    rintro ⟨run, end', hrun, -⟩
    rw [ping, limit?_overflow htimeout] at hrun
    cases hrun

/-- A kernel where every call succeeds at once. -/
def instantKernel : Kernel Int where
  call _ st := (0, st)
  timeMs st := (st, st)
  now st := st
  call_now _ st := Int.le_refl st
  timeMs_now st := ⟨Int.le_refl st, Int.le_refl st⟩

/-- The least timeout whose milliseconds are no `int`. -/
theorem ping_budget_overflows :
    ¬ BudgetKept instantKernel (fun _ st => (0, st)) (literal "ps2") 2147484 0 := by
  rintro ⟨run, end', hrun, -⟩
  rw [ping, limit?_overflow (by decide)] at hrun
  cases hrun

end Main

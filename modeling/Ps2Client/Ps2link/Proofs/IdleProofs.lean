import Ps2Client.Ps2link.Idle

/-!
# Proofs: when the idle timeout finds the client idle
-/

namespace Ps2link

open CMemory

variable {marker : Option (List Byte)} {timeout : Int}

/-! ## The system without the clock -/

/-- Without the clock and the phases of a request, this is the system of the main loop. -/
theorem TimedStep.system {s s' : Timed} (hstep : TimedStep marker timeout s s') :
    s'.system = s.system ∨ Step marker timeout s.system s'.system := by
  cases hstep with
  | tick now _ hnow => exact Or.inl rfl
  | main => exact Or.inr (.main s.clock s.system)
  | receive packet _ hpc hpacket => exact Or.inl rfl
  | scan packet _ hpc hpacket => exact Or.inr (.scan packet s.system hpc)
  | consoleActivity _ hpc => exact Or.inr (.consoleActivity s.clock s.system hpc)
  | request phase _ hpc hphase => exact Or.inl rfl
  | requestActivity _ hpc hphase => exact Or.inr (.requestActivity s.clock s.system hpc)
  | lost _ hpc hphase => exact Or.inr (.lost s.system hpc)

theorem TimedRun.system {s s' : Timed} (hrun : TimedRun marker timeout s s') :
    Run marker timeout s.system s'.system := by
  induction hrun with
  | refl => exact .refl
  | tail _ hstep ih =>
    rcases hstep.system with heq | hnext
    · rw [heq]
      exact ih
    · exact ih.tail hnext

/-- The main loop leaves exactly when its next step is to the branch of the idle timeout. -/
theorem leaves_iff (s : Timed) :
    s.leaves timeout = true ↔
      s.system.mainPc ≠ .idle ∧ (mainStep marker timeout s.clock s.system).mainPc = .idle := by
  unfold Timed.leaves mainStep
  cases hpc : s.system.mainPc with
  | entry => split_ifs <;> simp
  | top => split_ifs <;> simp
  | checked activity lost =>
    cases lost with
    | true => simp
    | false => simp; split_ifs <;> simp_all
  | grace => simp
  | idle => simp
  | done v => simp [hpc]

/-! ## Times -/

/-- The time of the last activity is the last one that was recorded, and not ahead of the clock. -/
structure Timed.Inv (s : Timed) : Prop where
  clock : s.system.activity ≤ s.clock
  recorded : ∀ a ∈ s.recorded, a ≤ s.system.activity

theorem Timed.Inv.initial (clock : Int) : (Timed.initial clock).Inv where
  clock := Int.le_refl _
  recorded a ha := by cases ha

/-- Recording activity at the present time. -/
theorem recorded_snoc {recorded : List Int} {activity now : Int} (hle : activity ≤ now)
    (hrecorded : ∀ a ∈ recorded, a ≤ activity) : ∀ a ∈ recorded ++ [now], a ≤ now := by
  intro a ha
  rcases List.mem_append.mp ha with ha | ha
  · exact Int.le_trans (hrecorded a ha) hle
  · exact Int.le_of_eq (List.mem_singleton.mp ha)

/-- Behind its entry, the main loop leaves the time of the last activity. -/
theorem mainStep_activity {now : Int} {s : System} (hentry : s.mainPc ≠ .entry) :
    (mainStep marker timeout now s).activity = s.activity := by
  unfold mainStep
  cases hpc : s.mainPc with
  | entry => exact absurd hpc hentry
  | top =>
    dsimp only
    split <;> rfl
  | checked activity lost =>
    dsimp only
    split
    · rfl
    · split <;> rfl
  | grace => rfl
  | idle => rfl
  | done v => rfl

/-- At its entry, it records the present time unless it returns at once. -/
theorem mainStep_activity_cases (marker : Option (List Byte)) (timeout now : Int) (s : System) :
    (mainStep marker timeout now s).activity = s.activity ∨
      (mainStep marker timeout now s).activity = now := by
  by_cases hentry : s.mainPc = .entry
  · unfold mainStep
    rw [hentry]
    dsimp only
    split
    · exact Or.inl rfl
    · exact Or.inr rfl
  · exact Or.inl (mainStep_activity hentry)

/-- The value that the main loop compares with the clock is the one it has just read. -/
theorem mainStep_checked {now activity : Int} {lost : Bool} {s : System}
    (hpc : (mainStep marker timeout now s).mainPc = .checked activity lost) :
    (mainStep marker timeout now s).activity = activity := by
  unfold mainStep at hpc ⊢
  cases hmain : s.mainPc with
  | entry => split_ifs at hpc <;> simp_all
  | top => split_ifs at hpc <;> simp_all
  | checked before lost =>
    cases lost with
    | true => simp_all
    | false =>
      simp only [hmain] at hpc
      split_ifs at hpc
  | grace => simp_all
  | idle => simp_all
  | done v => simp_all

theorem TimedStep.inv {s s' : Timed} (hstep : TimedStep marker timeout s s') (hs : s.Inv) :
    s'.Inv := by
  cases hstep with
  | tick now _ hnow => exact ⟨Int.le_trans hs.clock hnow, hs.recorded⟩
  | main =>
    rcases mainStep_activity_cases marker timeout s.clock s.system with heq | heq
    · exact ⟨heq ▸ hs.clock, fun a ha => heq ▸ hs.recorded a ha⟩
    · refine ⟨Int.le_of_eq heq, ?_⟩
      intro a ha
      exact heq ▸ Int.le_trans (hs.recorded a ha) hs.clock
  | receive packet _ hpc hpacket => exact ⟨hs.clock, hs.recorded⟩
  | scan packet _ hpc hpacket => exact ⟨hs.clock, hs.recorded⟩
  | consoleActivity _ hpc => exact ⟨Int.le_refl _, recorded_snoc hs.clock hs.recorded⟩
  | request phase _ hpc hphase => exact ⟨hs.clock, hs.recorded⟩
  | requestActivity _ hpc hphase => exact ⟨Int.le_refl _, recorded_snoc hs.clock hs.recorded⟩
  | lost _ hpc hphase => exact ⟨hs.clock, hs.recorded⟩

theorem TimedRun.inv {clock : Int} {s : Timed}
    (hrun : TimedRun marker timeout (.initial clock) s) : s.Inv := by
  induction hrun with
  | refl => exact .initial clock
  | tail _ hstep ih => exact hstep.inv ih

/-! ## Timely steps -/

/-- What timely steps keep: the value that the main loop is about to compare is still the time of the
last activity, and while a request is served the timeout has not passed since. -/
structure Timed.Current (timeout : Int) (s : Timed) : Prop where
  read : ∀ activity lost, s.system.mainPc = .checked activity lost → s.system.activity = activity
  busy : s.phase.Busy → s.clock - s.system.activity < timeout * 1000

theorem Timed.Current.initial (timeout clock : Int) : (Timed.initial clock).Current timeout where
  read activity lost hpc := by cases hpc
  busy hbusy := absurd hbusy (by decide : ¬ RequestPhase.waiting.Busy)

/-- Recording activity at the present time, when the main loop is not about to compare. -/
theorem Timed.Current.record {s s' : Timed} (hpositive : 0 < timeout)
    (hpc : s'.system.mainPc = s.system.mainPc) (hactivity : s'.system.activity = s'.clock)
    (hread : ∀ activity lost, s.system.mainPc ≠ .checked activity lost) : s'.Current timeout := by
  refine ⟨?_, ?_⟩
  · intro activity lost hchecked
    exact absurd (hpc ▸ hchecked) (hread activity lost)
  · intro _
    rw [hactivity]
    omega

/-- A step of another thread that records nothing. -/
theorem Timed.Current.keep {s s' : Timed} (hs : s.Current timeout)
    (hpc : s'.system.mainPc = s.system.mainPc)
    (hactivity : s'.system.activity = s.system.activity)
    (hbusy : s'.phase.Busy → s'.clock - s.system.activity < timeout * 1000) :
    s'.Current timeout := by
  refine ⟨?_, ?_⟩
  · intro activity lost hchecked
    rw [hactivity]
    exact hs.read activity lost (hpc ▸ hchecked)
  · rw [hactivity]
    exact hbusy

theorem TimedStep.current {s s' : Timed} (hpositive : 0 < timeout)
    (hstep : TimedStep marker timeout s s') (htimely : s.Timely timeout s')
    (hs : s.Current timeout) : s'.Current timeout := by
  cases hstep with
  | tick now _ hnow =>
    refine hs.keep rfl rfl ?_
    intro hbusy
    by_cases hsame : now = s.clock
    · rw [hsame]
      exact hs.busy hbusy
    · exact htimely.served hbusy hsame
  | main =>
    refine ⟨fun activity lost hpc => mainStep_checked hpc, ?_⟩
    intro hbusy
    show s.clock - (mainStep marker timeout s.clock s.system).activity < timeout * 1000
    rcases mainStep_activity_cases marker timeout s.clock s.system with heq | heq
    · rw [heq]
      exact hs.busy hbusy
    · rw [heq]
      omega
  | receive packet _ hpc hpacket => exact hs.keep rfl rfl hs.busy
  | scan packet _ hpc hpacket => exact hs.keep rfl rfl hs.busy
  | consoleActivity _ hpc =>
    exact .record hpositive rfl rfl (htimely.recorded (by simp))
  | request phase _ hpc hphase =>
    refine hs.keep rfl rfl ?_
    intro hbusy
    by_cases hbefore : s.phase.Busy
    · exact hs.busy hbefore
    · exact htimely.header hbefore hbusy
  | requestActivity _ hpc hphase =>
    exact .record hpositive rfl rfl (htimely.recorded (by simp))
  | lost _ hpc hphase =>
    refine hs.keep rfl rfl ?_
    intro hbusy
    exact absurd hbusy (by decide : ¬ RequestPhase.waiting.Busy)

theorem TimelyRun.run {s s' : Timed} (hrun : TimelyRun marker timeout s s') :
    TimedRun marker timeout s s' := by
  induction hrun with
  | refl => exact .refl
  | tail _ hstep ih => exact ih.tail hstep.1

theorem TimelyRun.current {clock : Int} {s : Timed} (hpositive : 0 < timeout)
    (hrun : TimelyRun marker timeout (.initial clock) s) : s.Current timeout := by
  induction hrun with
  | refl => exact .initial timeout clock
  | tail _ hstep ih => exact hstep.1.current hpositive hstep.2 ih

/-! ## Leaving -/

theorem leaves_checked {s : Timed} (hleaves : s.leaves timeout = true) :
    0 < timeout ∧ ∃ activity, s.system.mainPc = .checked activity false ∧
      timeout * 1000 ≤ s.clock - activity := by
  unfold Timed.leaves at hleaves
  split at hleaves
  · rename_i activity hpc
    have hpassed := of_decide_eq_true hleaves
    exact ⟨hpassed.1, activity, hpc, hpassed.2⟩
  · cases hleaves

/-- When the main loop leaves with a current value, the client is idle. -/
theorem Timed.Current.idle {s : Timed} (hcurrent : s.Current timeout) (hs : s.Inv)
    (hleaves : s.leaves timeout = true) : s.departure.Idle timeout := by
  obtain ⟨-, activity, hpc, hpassed⟩ := leaves_checked hleaves
  have hread : s.system.activity = activity := hcurrent.read activity false hpc
  constructor
  · intro a ha
    have hle : a ≤ s.system.activity := hs.recorded a ha
    show a ≤ s.clock - 1000 * timeout
    omega
  · intro hbusy
    have hbefore : s.clock - s.system.activity < timeout * 1000 := hcurrent.busy hbusy
    omega

/-- Only the main loop leaves. -/
theorem TimedStep.left {s s' : Timed} (hstep : TimedStep marker timeout s s') :
    s'.left = s.left ∨ s.leaves timeout = true ∧ s'.left = some s.departure := by
  cases hstep with
  | main =>
    unfold Timed.main
    dsimp only
    split_ifs with hleaves
    · exact Or.inr ⟨hleaves, rfl⟩
    · exact Or.inl rfl
  | _ => exact Or.inl rfl

/-- In every run whose steps are all timely, the client was idle whenever the main loop has left by
the idle timeout. -/
theorem idle_timeout (marker : Option (List Byte)) (timeout clock : Int) (s : Timed) (d : Departure)
    (hrun : TimelyRun marker timeout (.initial clock) s) (hleft : s.left = some d) :
    d.Idle timeout := by
  induction hrun with
  | refl => cases hleft
  | tail hbefore hstep ih =>
    rcases hstep.1.left with heq | ⟨hleaves, hnow⟩
    · exact ih (heq ▸ hleft)
    · rw [hnow] at hleft
      obtain rfl := Option.some.inj hleft
      have hcurrent := TimelyRun.current (leaves_checked hleaves).1 hbefore
      exact hcurrent.idle (TimedRun.inv (TimelyRun.run hbefore)) hleaves

/-- A step that records nothing and serves nothing is timely. -/
theorem Timed.Timely.quiet {s s' : Timed} (hrecorded : s'.recorded = s.recorded)
    (hbefore : ¬ s.phase.Busy) (hafter : ¬ s'.phase.Busy) : s.Timely timeout s' where
  recorded hne := absurd hrecorded hne
  header _ hbusy := absurd hbusy hafter
  served hbusy := absurd hbusy hbefore

/-- A step that goes on with the service of a request, at one time, is timely. -/
theorem Timed.Timely.busy {s s' : Timed} (hrecorded : s'.recorded = s.recorded)
    (hbefore : s.phase.Busy) (hclock : s'.clock = s.clock) : s.Timely timeout s' where
  recorded hne := absurd hrecorded hne
  header hidle := absurd hbefore hidle
  served _ hne := absurd hclock hne

/-- With a timeout of one second, a console packet at 300 ms and a request from 400 ms to 1200 ms:
the main loop leaves after a second without either. -/
theorem idle_timeout_second : ∃ s, TimelyRun none 1 (.initial 0) s ∧
    s.left = some ⟨2200, [300, 1200], .waiting⟩ ∧
    (⟨2200, [300, 1200], .waiting⟩ : Departure).Idle 1 := by
  let s₁ := (Timed.initial 0).main none 1
  let s₂ : Timed := { s₁ with clock := 300 }
  let s₃ : Timed := { s₂ with packet := some [104, 105, 10] }
  let s₄ : Timed := { s₃ with
    system := { s₃.system with
      console := scanConsole none [104, 105, 10] s₃.system.console
      consolePc := .scanned
      packets := [[104, 105, 10]] }
    packet := none }
  let s₅ : Timed := { s₄ with
    system := { s₄.system with activity := 300, consolePc := .waiting }
    recorded := [300] }
  let s₆ := s₅.main none 1
  let s₇ : Timed := { s₆ with clock := 400 }
  let s₈ := s₇.main none 1
  let s₉ : Timed := { s₈ with phase := .receiving }
  let t₁ : Timed := { s₉ with clock := 900 }
  let t₂ : Timed := { t₁ with phase := .serving }
  let t₃ : Timed := { t₂ with phase := .responding }
  let t₄ : Timed := { t₃ with clock := 1200 }
  let t₅ : Timed := { t₄ with phase := .served }
  let t₆ : Timed := { t₅ with
    system := { t₅.system with activity := 1200 }
    recorded := [300, 1200]
    phase := .waiting }
  let t₇ := t₆.main none 1
  let t₈ : Timed := { t₇ with clock := 2200 }
  have hconsole : TimelyRun none 1 (.initial 0) s₈ := by
    refine Relation.ReflTransGen.tail ?_ ⟨.main s₇, .quiet rfl (by decide) (by decide)⟩
    refine Relation.ReflTransGen.tail ?_
      ⟨.tick 400 s₆ (by decide), .quiet rfl (by decide) (by decide)⟩
    refine Relation.ReflTransGen.tail ?_ ⟨.main s₅, .quiet rfl (by decide) (by decide)⟩
    refine Relation.ReflTransGen.tail ?_
      ⟨.consoleActivity s₄ rfl, ⟨fun _ _ _ => nofun, nofun, nofun⟩⟩
    refine Relation.ReflTransGen.tail ?_ ⟨.scan _ s₃ rfl rfl, .quiet rfl (by decide) (by decide)⟩
    refine Relation.ReflTransGen.tail ?_ ⟨.receive _ s₂ rfl rfl, .quiet rfl (by decide) (by decide)⟩
    refine Relation.ReflTransGen.tail ?_
      ⟨.tick 300 s₁ (by decide), .quiet rfl (by decide) (by decide)⟩
    exact Relation.ReflTransGen.single ⟨.main _, .quiet rfl (by decide) (by decide)⟩
  have hrequest : TimelyRun none 1 s₈ t₆ := by
    refine Relation.ReflTransGen.tail ?_
      ⟨.requestActivity t₅ rfl rfl, ⟨fun _ _ _ => nofun, nofun, nofun⟩⟩
    refine Relation.ReflTransGen.tail ?_
      ⟨.request .served t₄ rfl .responded, .busy rfl (by decide) rfl⟩
    refine Relation.ReflTransGen.tail ?_
      ⟨.tick 1200 t₃ (by decide), ⟨fun hne => absurd rfl hne, by decide, by decide⟩⟩
    refine Relation.ReflTransGen.tail ?_
      ⟨.request .responding t₂ rfl .respond, .busy rfl (by decide) rfl⟩
    refine Relation.ReflTransGen.tail ?_
      ⟨.request .serving t₁ rfl .body, .busy rfl (by decide) rfl⟩
    refine Relation.ReflTransGen.tail ?_
      ⟨.tick 900 s₉ (by decide), ⟨fun hne => absurd rfl hne, by decide, by decide⟩⟩
    exact Relation.ReflTransGen.single
      ⟨.request .receiving s₈ rfl .header, ⟨fun hne => absurd rfl hne, by decide, nofun⟩⟩
  have hrun : TimelyRun none 1 (.initial 0) (t₈.main none 1) := by
    refine Relation.ReflTransGen.tail ?_ ⟨.main t₈, .quiet rfl (by decide) (by decide)⟩
    refine Relation.ReflTransGen.tail ?_
      ⟨.tick 2200 t₇ (by decide), .quiet rfl (by decide) (by decide)⟩
    refine Relation.ReflTransGen.tail ?_ ⟨.main t₆, .quiet rfl (by decide) (by decide)⟩
    exact hconsole.trans hrequest
  exact ⟨_, hrun, rfl, idle_timeout none 1 0 _ _ hrun rfl⟩

/-- With a timeout of one second, a console packet is recorded and a request comes in after a second,
between the two reads of the main loop: it leaves at once. -/
theorem not_idle_timeout : ∃ s d, TimedRun none 1 (.initial 0) s ∧ s.left = some d ∧
    (∃ a ∈ d.recorded, ¬ a ≤ d.time - 1000 * 1) ∧ d.phase.Busy := by
  let s₁ := (Timed.initial 0).main none 1
  let s₂ := s₁.main none 1
  let s₃ : Timed := { s₂ with clock := 1000 }
  let s₄ : Timed := { s₃ with packet := some [] }
  let s₅ : Timed := { s₃ with
    system := { s₃.system with
      console := scanConsole none [] s₃.system.console, consolePc := .scanned, packets := [[]] } }
  let s₆ : Timed := { s₅ with
    system := { s₅.system with activity := 1000, consolePc := .waiting }
    recorded := [1000] }
  let s₇ : Timed := { s₆ with phase := .receiving }
  have hrun : TimedRun none 1 (.initial 0) (s₇.main none 1) := by
    refine Relation.ReflTransGen.tail ?_ (.main s₇)
    refine Relation.ReflTransGen.tail ?_ (.request .receiving s₆ rfl .header)
    refine Relation.ReflTransGen.tail ?_ (.consoleActivity s₅ rfl)
    refine Relation.ReflTransGen.tail ?_ (.scan [] s₄ rfl rfl)
    refine Relation.ReflTransGen.tail ?_ (.receive [] s₃ rfl rfl)
    refine Relation.ReflTransGen.tail ?_ (.tick 1000 s₂ (by decide))
    refine Relation.ReflTransGen.tail ?_ (.main s₁)
    exact Relation.ReflTransGen.single (.main _)
  exact ⟨_, _, hrun, rfl, ⟨1000, List.mem_singleton_self 1000, by decide⟩, Or.inl rfl⟩

end Ps2link

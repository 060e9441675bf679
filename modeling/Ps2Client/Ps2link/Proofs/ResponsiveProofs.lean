import Ps2Client.History.Proofs.ProgressProofs
import Ps2Client.Ps2link.Proofs.IdleProofs
import Ps2Client.Ps2link.Proofs.MainloopProofs
import Ps2Client.Ps2link.Proofs.PacingProofs
import Ps2Client.Ps2link.Responsive

/-!
# Proofs: how soon the main thread responds

Each step of the main thread takes it down a rank; the other threads leave it where it is, and do not
take back what it waits for.
-/

namespace Ps2link

open CMemory History

/-! ## The main loop -/

section Mainloop

variable {marker : Option (List Byte)} {timeout : Int}

/-- At rank 0 the main loop has returned. -/
theorem MainPc.done_of_seenRank {pc : MainPc} (hpc : pc.seenRank = 0) : pc.Done := by
  cases pc with
  | done v => exact ⟨v, rfl⟩
  | _ => cases hpc

theorem MainPc.done_of_lostRank {pc : MainPc} (hpc : pc.lostRank = 0) : pc.Done := by
  cases pc with
  | done v => exact ⟨v, rfl⟩
  | checked activity lost => cases lost <;> cases hpc
  | _ => cases hpc

theorem MainPc.done_of_idleRank {pc : MainPc} (hpc : pc.idleRank = 0) : pc.Done := by
  cases pc with
  | done v => exact ⟨v, rfl⟩
  | _ => cases hpc

theorem MainPc.seenRank_le (pc : MainPc) : pc.seenRank ≤ 2 := by
  cases pc <;> simp [MainPc.seenRank]

theorem MainPc.lostRank_le (pc : MainPc) : pc.lostRank ≤ 4 := by
  cases pc with
  | checked activity lost => cases lost <;> simp [MainPc.lostRank]
  | _ => simp [MainPc.lostRank]

theorem MainPc.idleRank_le {pc : MainPc} (hpc : pc ≠ .entry) : pc.idleRank ≤ 3 := by
  cases pc with
  | entry => exact absurd rfl hpc
  | _ => simp [MainPc.idleRank]

/-- Once the marker has been seen, every step of the main loop comes nearer to its return. -/
theorem mainStep_seenRank (now : Int) {s : System} (hseen : s.console.seen = true) :
    (mainStep marker timeout now s).mainPc.seenRank ≤ s.mainPc.seenRank - 1 := by
  unfold mainStep
  cases hpc : s.mainPc with
  | entry =>
    dsimp only
    split <;> simp [MainPc.seenRank]
  | top =>
    dsimp only
    rw [if_pos hseen]
    simp [MainPc.seenRank]
  | checked activity lost =>
    dsimp only
    split
    · simp [MainPc.seenRank]
    · split <;> simp [MainPc.seenRank]
  | grace => simp [MainPc.seenRank]
  | idle => simp [MainPc.seenRank]
  | done v => simp [MainPc.seenRank, hpc]

/-- So it does once the connection is lost. -/
theorem mainStep_lostRank (now : Int) {s : System} (hlost : s.lost = true) :
    (mainStep marker timeout now s).mainPc.lostRank ≤ s.mainPc.lostRank - 1 := by
  unfold mainStep
  cases hpc : s.mainPc with
  | entry =>
    dsimp only
    split <;> simp [MainPc.lostRank]
  | top =>
    dsimp only
    split
    · simp [MainPc.lostRank]
    · simp [MainPc.lostRank, hlost]
  | checked activity lost =>
    cases lost with
    | true => simp [MainPc.lostRank]
    | false =>
      dsimp only
      rw [if_neg Bool.false_ne_true]
      split <;> simp [MainPc.lostRank]
  | grace => simp [MainPc.lostRank]
  | idle => simp [MainPc.lostRank]
  | done v => simp [MainPc.lostRank, hpc]

/-- So it does when the time is over and what it reads is old. -/
theorem mainStep_idleRank (marker : Option (List Byte)) {now : Int} {s : System} (htimeout : 0 < timeout)
    (hentry : s.mainPc ≠ .entry)
    (hread : ∀ activity lost, s.mainPc = .checked activity lost → timeout * 1000 ≤ now - activity) :
    (mainStep marker timeout now s).mainPc ≠ .entry ∧
      (mainStep marker timeout now s).mainPc.idleRank ≤ s.mainPc.idleRank - 1 := by
  unfold mainStep
  cases hpc : s.mainPc with
  | entry => exact absurd hpc hentry
  | top =>
    dsimp only
    split <;> simp [MainPc.idleRank]
  | checked activity lost =>
    dsimp only
    split
    · simp [MainPc.idleRank]
    · rw [if_pos ⟨htimeout, hread activity lost hpc⟩]
      simp [MainPc.idleRank]
  | grace => simp [MainPc.idleRank]
  | idle => simp [MainPc.idleRank]
  | done v => simp [MainPc.idleRank, hpc]

/-! ### What the others keep -/

/-- The main loop never sets the flag of a lost connection. -/
theorem mainStep_lost (now : Int) (s : System) :
    (mainStep marker timeout now s).lost = s.lost := by
  unfold mainStep
  split
  · split <;> rfl
  · split <;> rfl
  · split
    · rfl
    · split <;> rfl
  · rfl
  · rfl
  · rfl

/-- A connection that is lost stays lost. -/
theorem Step.lost_kept {s s' : System} (hstep : Step marker timeout s s') (hlost : s.lost = true) :
    s'.lost = true := by
  cases hstep with
  | main now => rw [mainStep_lost, hlost]
  | scan packet hpc => exact hlost
  | consoleActivity now hpc => exact hlost
  | requestActivity now hpc => exact hlost
  | lost hpc => rfl

/-- A marker that was seen stays seen. -/
theorem Step.seen_kept {s s' : System} (hstep : Step marker timeout s s')
    (hseen : s.console.seen = true) : s'.console.seen = true :=
  (Console.record_eq_some (hstep.record (if_pos hseen))).1

/-- What a step of the threads keeps is kept when there is a clock, too. -/
theorem TimedStep.keeps {P : System → Prop} (hP : ∀ s s', Step marker timeout s s' → P s → P s')
    {s s' : Timed} (hstep : TimedStep marker timeout s s') (hs : P s.system) : P s'.system := by
  rcases hstep.system with heq | hsystem
  · rw [heq]
    exact hs
  · exact hP _ _ hsystem hs

/-- The main loop after a read is not ahead of the last activity. -/
def Timed.ReadsPast (s : Timed) : Prop :=
  ∀ activity lost, s.system.mainPc = .checked activity lost → activity ≤ s.system.activity

/-- The main loop compares the activity it has read. -/
theorem mainStep_readsPast (now : Int) {s : System} {activity : Int} {lost : Bool}
    (hpc : (mainStep marker timeout now s).mainPc = .checked activity lost) :
    activity = s.activity ∧ (mainStep marker timeout now s).activity = s.activity := by
  unfold mainStep at hpc ⊢
  cases hs : s.mainPc with
  | entry =>
    simp only [hs] at hpc
    split at hpc <;> cases hpc
  | top =>
    simp only [hs] at hpc
    dsimp only
    by_cases hseen : s.console.seen = true
    · rw [if_pos hseen] at hpc
      cases hpc
    · rw [if_neg hseen] at hpc ⊢
      cases hpc
      exact ⟨rfl, rfl⟩
  | checked read lost' =>
    simp only [hs] at hpc
    split at hpc
    · cases hpc
    · split at hpc <;> cases hpc
  | grace =>
    simp only [hs] at hpc
    cases hpc
  | idle =>
    simp only [hs] at hpc
    cases hpc
  | done v =>
    simp only [hs] at hpc
    cases hpc

/-- What the main loop has read is never later than the last activity. -/
theorem TimedStep.readsPast {s s' : Timed} (hstep : TimedStep marker timeout s s') (hs : s.Inv)
    (hread : s.ReadsPast) : s'.ReadsPast := by
  cases hstep with
  | main =>
    intro activity lost hpc
    obtain ⟨heq, hkept⟩ := mainStep_readsPast s.clock hpc
    exact Int.le_of_eq (heq.trans hkept.symm)
  | consoleActivity _ hpc =>
    exact fun activity lost hmain => Int.le_trans (hread activity lost hmain) hs.clock
  | requestActivity _ hpc hphase =>
    exact fun activity lost hmain => Int.le_trans (hread activity lost hmain) hs.clock
  | tick now _ hnow => exact hread
  | receive packet _ hpc hpacket => exact hread
  | scan packet _ hpc hpacket => exact hread
  | request phase _ hpc hphase => exact hread
  | lost _ hpc hphase => exact hread

theorem TimedRun.readsPast {clock : Int} {s : Timed}
    (hrun : TimedRun marker timeout (.initial clock) s) : s.ReadsPast := by
  induction hrun with
  | refl => exact nofun
  | tail hbefore hstep ih => exact hstep.readsPast (TimedRun.inv hbefore) ih

/-! ### The descents -/

/-- The descent once the marker has been seen. -/
theorem seen_descends : Descends (Timed.MainStep marker timeout) (Timed.OtherStep marker timeout)
    (fun s => s.system.console.seen = true) (fun s => s.system.mainPc.seenRank) where
  own s t hs hstep := by
    subst hstep
    exact ⟨Step.seen_kept (.main s.clock s.system) hs, mainStep_seenRank s.clock hs⟩
  others s t hs hstep :=
    ⟨hstep.1.keeps (fun _ _ h => Step.seen_kept h) hs, by rw [hstep.2]⟩

/-- The descent once the connection is lost. -/
theorem lost_descends : Descends (Timed.MainStep marker timeout) (Timed.OtherStep marker timeout)
    (fun s => s.system.lost = true) (fun s => s.system.mainPc.lostRank) where
  own s t hs hstep := by
    subst hstep
    exact ⟨Step.lost_kept (.main s.clock s.system) hs, mainStep_lostRank s.clock hs⟩
  others s t hs hstep :=
    ⟨hstep.1.keeps (fun _ _ h => Step.lost_kept h) hs, by rw [hstep.2]⟩

/-- The main loop is past its entry, and the timeout has passed since the last activity. -/
structure Timed.Overdue (timeout : Int) (s : Timed) : Prop where
  inv : s.Inv
  reads : s.ReadsPast
  entered : s.system.mainPc ≠ .entry
  passed : timeout * 1000 ≤ s.clock - s.system.activity

/-- A quiet step records no activity, and time goes on. -/
theorem Timed.QuietStep.activity {s t : Timed} (hstep : s.QuietStep marker timeout t)
    (hentry : s.system.mainPc ≠ .entry) : t.system.activity = s.system.activity ∧ s.clock ≤ t.clock := by
  obtain ⟨⟨htimed, -⟩, hrecorded⟩ := hstep
  cases htimed with
  | tick now _ hnow => exact ⟨rfl, hnow⟩
  | main => exact ⟨mainStep_activity hentry, Int.le_refl _⟩
  | consoleActivity _ hpc => exact absurd hrecorded (by simp)
  | requestActivity _ hpc hphase => exact absurd hrecorded (by simp)
  | receive packet _ hpc hpacket => exact ⟨rfl, Int.le_refl _⟩
  | scan packet _ hpc hpacket => exact ⟨rfl, Int.le_refl _⟩
  | request phase _ hpc hphase => exact ⟨rfl, Int.le_refl _⟩
  | lost _ hpc hphase => exact ⟨rfl, Int.le_refl _⟩

/-- The descent once the timeout has passed. -/
theorem idle_descends (htimeout : 0 < timeout) :
    Descends (Timed.MainStep marker timeout) (Timed.QuietStep marker timeout)
      (Timed.Overdue timeout) (fun s => s.system.mainPc.idleRank) where
  own s t hs hstep := by
    subst hstep
    have hread : ∀ activity lost, s.system.mainPc = .checked activity lost →
        timeout * 1000 ≤ s.clock - activity := by
      intro activity lost hpc
      have hle := hs.reads activity lost hpc
      have hpassed := hs.passed
      omega
    obtain ⟨hentered, hrank⟩ := mainStep_idleRank marker htimeout hs.entered hread
    refine ⟨⟨(TimedStep.main s).inv hs.inv, (TimedStep.main s).readsPast hs.inv hs.reads, hentered, ?_⟩,
      hrank⟩
    rw [show (s.main marker timeout).system.activity = s.system.activity from
      mainStep_activity hs.entered]
    exact hs.passed
  others s t hs hstep := by
    obtain ⟨hactivity, hclock⟩ := hstep.activity hs.entered
    have hpassed := hs.passed
    refine ⟨⟨hstep.1.1.inv hs.inv, hstep.1.1.readsPast hs.inv hs.reads, ?_, ?_⟩, ?_⟩
    · rw [hstep.1.2]
      exact hs.entered
    · rw [hactivity]
      omega
    · rw [hstep.1.2]

/-- In every interleaving, the main loop returns after two more steps of its own when the marker has
been seen, after four when the connection is lost, and after three when the timeout has passed and no
activity is recorded meanwhile. -/
theorem mainloop_responds {marker : Option (List Byte)} {timeout clock : Int} {s : Timed}
    (hrun : TimedRun marker timeout (.initial clock) s) (n : Nat) (t : Timed) :
    (s.system.console.seen = true → 2 ≤ n →
      Counted (Timed.MainStep marker timeout) (Timed.OtherStep marker timeout) n s t →
      t.system.mainPc.Done) ∧
    (s.system.lost = true → 4 ≤ n →
      Counted (Timed.MainStep marker timeout) (Timed.OtherStep marker timeout) n s t →
      t.system.mainPc.Done) ∧
    (0 < timeout → s.system.mainPc ≠ .entry → timeout * 1000 ≤ s.clock - s.system.activity → 3 ≤ n →
      Counted (Timed.MainStep marker timeout) (Timed.QuietStep marker timeout) n s t →
      t.system.mainPc.Done) := by
  refine ⟨?_, ?_, ?_⟩
  · intro hseen hn hcounted
    have hrank := Nat.le_trans (MainPc.seenRank_le s.system.mainPc) hn
    exact MainPc.done_of_seenRank (seen_descends.reaches hcounted hseen hrank).2
  · intro hlost hn hcounted
    have hrank := Nat.le_trans (MainPc.lostRank_le s.system.mainPc) hn
    exact MainPc.done_of_lostRank (lost_descends.reaches hcounted hlost hrank).2
  · intro htimeout hentered hpassed hn hcounted
    have hoverdue : s.Overdue timeout := ⟨hrun.inv, hrun.readsPast, hentered, hpassed⟩
    have hrank := Nat.le_trans (MainPc.idleRank_le hentered) hn
    exact MainPc.done_of_idleRank ((idle_descends htimeout).reaches hcounted hoverdue hrank).2

/-- The connection is lost after the main loop has read the flag. -/
theorem mainloop_responds_lost : ∃ s t : Timed, TimedRun none (-1) (.initial 0) s ∧
    s.system.mainPc = .checked 0 false ∧
    Counted (Timed.MainStep none (-1)) (Timed.OtherStep none (-1)) 4 s t ∧ t.system.mainPc.Done := by
  let s₂ := ((Timed.initial 0).main none (-1)).main none (-1)
  let s₃ : Timed := { s₂ with system := { s₂.system with lost := true, requestPc := .ended } }
  have hrun : TimedRun none (-1) (.initial 0) s₃ := by
    refine Relation.ReflTransGen.tail ?_ (.lost s₂ rfl (Or.inl rfl))
    exact (Relation.ReflTransGen.single (.main _)).tail (.main _)
  have hcounted : Counted (Timed.MainStep none (-1)) (Timed.OtherStep none (-1)) 4 s₃
      ((((s₃.main none (-1)).main none (-1)).main none (-1)).main none (-1)) :=
    .own (.own (.own (.own (.refl s₃) rfl) rfl) rfl) rfl
  exact ⟨s₃, _, hrun, rfl, hcounted, (mainloop_responds hrun 4 _).2.1 rfl (Nat.le_refl 4) hcounted⟩

end Mainloop

/-! ## The handshake -/

section Handshake

variable {σ : Type} {h : Host σ} {e : Endian} {timeoutMs : Int}

/-- The flag of the answer stays set. -/
theorem HandshakeStep.answered_kept {m m' : Meeting σ} (hstep : HandshakeStep h e timeoutMs m m')
    (hm : m.client.pingAnswered = true) : m'.client.pingAnswered = true := by
  cases hstep with
  | handshake now m hlive => rw [handshakeStep_client, hm]
  | serve sock k packet m hlive hk =>
    have heffect : PingEffect (k.decode e packet) { m.client with sock := sock }
        (dispatch h.recording e packet { m.client with sock := sock }).2.2 := by
      rw [dispatch_operation h.recording e _ hk]
      exact perform_ping _ _
    exact heffect.answered hm
  | between host sock activity lost m => exact hm

/-- A ping that was answered stays answered. -/
theorem PacedStep.answered_kept {s s' : Paced σ} (hstep : PacedStep h e timeoutMs s s')
    (hs : s.meeting.client.pingAnswered = true) : s'.meeting.client.pingAnswered = true := by
  cases hstep with
  | tick now s hnow => exact hs
  | handshake s hlive =>
    show (handshakeStep timeoutMs s.clock s.meeting).client.pingAnswered = true
    rw [handshakeStep_client, hs]
  | others m s hstep hpc hcommands => exact hstep.answered_kept hs

/-- Time goes on. -/
theorem PacedStep.clock_le {s s' : Paced σ} (hstep : PacedStep h e timeoutMs s s') :
    s.clock ≤ s'.clock := by
  cases hstep with
  | tick now s hnow => exact hnow
  | handshake s hlive => exact Int.le_refl _
  | others m s hstep hpc hcommands => exact Int.le_refl _

/-! ### The descents -/

/-- Once the ping is answered, every step of the handshake comes nearer to its return. -/
theorem handshakeStep_answeredRank (now : Int) {m : Meeting σ} (hm : m.client.pingAnswered = true) :
    (handshakeStep timeoutMs now m).pc.answeredRank ≤ m.pc.answeredRank - 1 := by
  unfold handshakeStep
  cases hpc : m.pc with
  | entry => simp [HandshakePc.answeredRank]
  | test start next =>
    dsimp only
    rw [if_pos hm]
    simp [HandshakePc.answeredRank]
  | unanswered start next => dsimp only; split <;> simp [HandshakePc.answeredRank]
  | early start next read =>
    dsimp only
    split
    · simp [HandshakePc.answeredRank]
    · split <;> simp [HandshakePc.answeredRank]
  | answered start => simp [HandshakePc.answeredRank]
  | done result => simp [HandshakePc.answeredRank, hpc]

/-- So it does once the connection is lost. -/
theorem handshakeStep_lostRank (now : Int) {m : Meeting σ} (hm : m.client.lost = true) :
    (handshakeStep timeoutMs now m).pc.lostRank ≤ m.pc.lostRank - 1 := by
  unfold handshakeStep
  cases hpc : m.pc with
  | entry => simp [HandshakePc.lostRank]
  | test start next => dsimp only; split <;> simp [HandshakePc.lostRank]
  | unanswered start next => dsimp only; split <;> simp [HandshakePc.lostRank]
  | early start next read =>
    dsimp only
    rw [if_pos hm]
    simp [HandshakePc.lostRank]
  | answered start => simp [HandshakePc.lostRank]
  | done result => simp [HandshakePc.lostRank, hpc]

/-- The handshake that began at `start` has been over its time, or it waits no more. -/
def HandshakePc.LateAt (timeoutMs clock : Int) (pc : HandshakePc) : Prop :=
  pc ≠ .entry ∧ ∀ start, pc.start = some start → timeoutMs ≤ clock - start

/-- So it does once the clock has passed the timeout. -/
theorem handshakeStep_late {now : Int} {m : Meeting σ} (hm : m.pc.LateAt timeoutMs now) :
    (handshakeStep timeoutMs now m).pc.LateAt timeoutMs now ∧
      (handshakeStep timeoutMs now m).pc.lateRank ≤ m.pc.lateRank - 1 := by
  obtain ⟨hentry, hlate⟩ := hm
  unfold handshakeStep
  cases hpc : m.pc with
  | entry => exact absurd hpc hentry
  | test start next =>
    rw [hpc] at hlate
    dsimp only
    split
    · exact ⟨⟨nofun, nofun⟩, by simp [HandshakePc.lateRank]⟩
    · exact ⟨⟨nofun, hlate⟩, by simp [HandshakePc.lateRank]⟩
  | unanswered start next =>
    dsimp only
    rw [if_pos (hlate start (by rw [hpc]; rfl))]
    exact ⟨⟨nofun, nofun⟩, by simp [HandshakePc.lateRank]⟩
  | early start next read =>
    rw [hpc] at hlate
    dsimp only
    split
    · exact ⟨⟨nofun, nofun⟩, by simp [HandshakePc.lateRank]⟩
    · split
      · exact ⟨⟨nofun, hlate⟩, by simp [HandshakePc.lateRank]⟩
      · exact ⟨⟨nofun, hlate⟩, by simp [HandshakePc.lateRank]⟩
  | answered start => exact ⟨⟨nofun, nofun⟩, by simp [HandshakePc.lateRank]⟩
  | done result =>
    dsimp only
    rw [hpc]
    exact ⟨⟨nofun, nofun⟩, by simp [HandshakePc.lateRank]⟩

/-- The descent once the ping is answered, -/
theorem answered_descends : Descends (Paced.OwnStep timeoutMs) (Paced.OtherStep h e timeoutMs)
    (fun s : Paced σ => s.meeting.client.pingAnswered = true)
    (fun s => s.meeting.pc.answeredRank) where
  own s t hs hstep := by
    obtain ⟨hlive, rfl⟩ := hstep
    exact ⟨PacedStep.answered_kept (h := h) (e := e) (.handshake s hlive) hs,
      handshakeStep_answeredRank s.clock hs⟩
  others s t hs hstep := ⟨hstep.1.answered_kept hs, by rw [hstep.2.1]⟩

/-- once the connection is lost, -/
theorem hungUp_descends : Descends (Paced.OwnStep timeoutMs) (Paced.OtherStep h e timeoutMs)
    (fun s : Paced σ => s.meeting.client.lost = true) (fun s => s.meeting.pc.lostRank) where
  own s t hs hstep := by
    obtain ⟨hlive, rfl⟩ := hstep
    refine ⟨?_, handshakeStep_lostRank s.clock hs⟩
    show (handshakeStep timeoutMs s.clock s.meeting).client.lost = true
    rw [handshakeStep_client]
    exact hs
  others s t hs hstep := ⟨hstep.2.2 hs, by rw [hstep.2.1]⟩

/-- and once it is too late. -/
theorem late_descends : Descends (Paced.OwnStep timeoutMs) (Paced.OtherStep h e timeoutMs)
    (fun s : Paced σ => s.meeting.pc.LateAt timeoutMs s.clock) (fun s => s.meeting.pc.lateRank) where
  own s t hs hstep := by
    obtain ⟨hlive, rfl⟩ := hstep
    exact handshakeStep_late hs
  others s t hs hstep := by
    obtain ⟨htimed, hpc, -⟩ := hstep
    rw [hpc]
    refine ⟨⟨hs.1, ?_⟩, Nat.le_refl _⟩
    intro start hstart
    have hle := hs.2 start hstart
    have hclock := htimed.clock_le
    omega

theorem HandshakePc.ranks_le (pc : HandshakePc) :
    pc.answeredRank ≤ 4 ∧ pc.lostRank ≤ 4 ∧ (pc ≠ .entry → pc.lateRank ≤ 3) := by
  cases pc <;> simp [HandshakePc.answeredRank, HandshakePc.lostRank, HandshakePc.lateRank]

theorem HandshakePc.done_of_rank {pc : HandshakePc}
    (hpc : pc.answeredRank = 0 ∨ pc.lostRank = 0 ∨ pc.lateRank = 0) : ∃ result, pc = .done result := by
  cases pc with
  | done result => exact ⟨result, rfl⟩
  | _ => simp [HandshakePc.answeredRank, HandshakePc.lostRank, HandshakePc.lateRank] at hpc

/-- In every interleaving, the handshake returns after four more steps of its own when it has been
answered or the connection is lost, and after three when its time is over. -/
theorem handshake_responds (h : Host σ) (e : Endian) (timeoutMs : Int) (n : Nat) (s t : Paced σ)
    (hcounted : Counted (Paced.OwnStep timeoutMs) (Paced.OtherStep h e timeoutMs) n s t) :
    (s.meeting.client.pingAnswered = true → 4 ≤ n → ∃ result, t.meeting.pc = .done result) ∧
    (s.meeting.client.lost = true → 4 ≤ n → ∃ result, t.meeting.pc = .done result) ∧
    (∀ start, s.meeting.pc.start = some start → timeoutMs ≤ s.clock - start → 3 ≤ n →
      ∃ result, t.meeting.pc = .done result) := by
  obtain ⟨hanswered, hlost, hlate⟩ := s.meeting.pc.ranks_le
  refine ⟨?_, ?_, ?_⟩
  · intro hs hn
    have hrank := answered_descends.reaches hcounted hs (Nat.le_trans hanswered hn)
    exact HandshakePc.done_of_rank (Or.inl hrank.2)
  · intro hs hn
    have hrank := hungUp_descends.reaches hcounted hs (Nat.le_trans hlost hn)
    exact HandshakePc.done_of_rank (Or.inr (Or.inl hrank.2))
  · intro start hstart hover hn
    have hentry : s.meeting.pc ≠ .entry := by
      intro hpc
      rw [hpc] at hstart
      cases hstart
    have hs : s.meeting.pc.LateAt timeoutMs s.clock := by
      refine ⟨hentry, ?_⟩
      intro start' hstart'
      rw [hstart] at hstart'
      rw [← Option.some.inj hstart']
      exact hover
    have hrank := late_descends.reaches hcounted hs (Nat.le_trans (hlate hentry) hn)
    exact HandshakePc.done_of_rank (Or.inr (Or.inr hrank.2))

/-- A handshake of two seconds that gets no answer. -/
theorem handshake_responds_late : ∃ s t : Paced Unit, s.meeting.pc = .test 0 0 ∧ s.clock = 2000 ∧
    Counted (Paced.OwnStep 2000) (Paced.OtherStep failingHost .little 2000) 3 s t ∧
    ∃ result, t.meeting.pc = .done result := by
  let s₁ : Paced Unit := (Paced.initial () (.receiving []) 0).handshake 2000
  let s₂ : Paced Unit := { s₁ with clock := 2000 }
  have hcounted : Counted (Paced.OwnStep 2000) (Paced.OtherStep failingHost .little 2000) 3 s₂
      (((s₂.handshake 2000).handshake 2000).handshake 2000) :=
    .own (.own (.own (.refl s₂) ⟨rfl, rfl⟩) ⟨rfl, rfl⟩) ⟨rfl, rfl⟩
  exact ⟨s₂, _, rfl, rfl, hcounted, (handshake_responds _ _ _ _ _ _ hcounted).2.2 0 rfl
    (by decide) (Nat.le_refl 3)⟩

end Handshake

end Ps2link

import Ps2Client.History.Proofs.PastProofs
import Ps2Client.Ps2link.Pacing
import Ps2Client.Ps2link.Proofs.HandshakeProofs

/-!
# Proofs: the pace of the handshake
-/

namespace Ps2link

open CMemory History

variable {σ : Type} {h : Host σ} {e : Endian} {timeoutMs : Int}

/-! ## The invariant -/

/-- The handshake is in its loop, with `next` as the time of its next command. -/
structure Waiting (start next : Int) (s : Paced σ) : Prop where
  started : s.trace.head? = some (.started start)
  since : start ≤ s.clock
  unseen : .sawAnswered true ∉ s.trace ∧ .sawLost true ∉ s.trace
  apart : ∀ t, .sent t ∈ s.trace → t + 1000 ≤ next

/-- What the trace is like where the handshake is. -/
def TraceAt (timeoutMs : Int) (s : Paced σ) : HandshakePc → Prop
  | .entry => s.trace = []
  | .test start next => Waiting start next s
  | .unanswered start next =>
    Waiting start next s ∧ ∃ front, s.trace = front ++ [.sawAnswered false]
  | .early start next now =>
    Waiting start next s ∧ now - start < timeoutMs ∧
      ∃ front, s.trace = front ++ [.sawAnswered false, .readClock now]
  | .answered start =>
    s.trace.head? = some (.started start) ∧ start ≤ s.clock ∧
      ∃ front, s.trace = front ++ [.sawAnswered true]
  | .done result => .returned result ∈ s.trace

structure PacedInv (timeoutMs : Int) (s : Paced σ) : Prop where
  trace : TraceAt timeoutMs s s.meeting.pc
  events : Always (HandshakeEvent.Paced timeoutMs) s.trace
  commands : s.meeting.commands = s.trace.filterMap HandshakeEvent.command

theorem pacedInv_initial (host : σ) (sock : Network.Socket) (clock : Int) :
    PacedInv timeoutMs (.initial host sock clock) :=
  ⟨rfl, always_nil _, rfl⟩

/-- Time passes, and the other thread takes steps. -/
theorem TraceAt.later {s s' : Paced σ} {pc : HandshakePc} (hs : TraceAt timeoutMs s pc)
    (htrace : s'.trace = s.trace) (hclock : s.clock ≤ s'.clock) : TraceAt timeoutMs s' pc := by
  have hwait : ∀ {start next}, Waiting start next s → Waiting start next s' := by
    intro start next hw
    exact ⟨htrace ▸ hw.started, Int.le_trans hw.since hclock, htrace ▸ hw.unseen, htrace ▸ hw.apart⟩
  cases pc with
  | entry => exact htrace.trans hs
  | test start next => exact hwait hs
  | unanswered start next =>
    obtain ⟨hw, hfront⟩ := hs
    exact ⟨hwait hw, htrace ▸ hfront⟩
  | early start next now =>
    obtain ⟨hw, htime, hfront⟩ := hs
    exact ⟨hwait hw, htime, htrace ▸ hfront⟩
  | answered start =>
    obtain ⟨hstart, hsince, hfront⟩ := hs
    exact ⟨htrace ▸ hstart, Int.le_trans hsince hclock, htrace ▸ hfront⟩
  | done result =>
    show .returned result ∈ s'.trace
    rw [htrace]
    exact hs

/-- The loop goes on after an event that neither sends nor sees a flag set. -/
theorem Waiting.append {start next next' : Int} {s s' : Paced σ} {new : List HandshakeEvent}
    (hw : Waiting start next s) (htrace : s'.trace = s.trace ++ new) (hclock : s'.clock = s.clock)
    (hunseen : .sawAnswered true ∉ new ∧ .sawLost true ∉ new) (hle : next ≤ next')
    (hsent : ∀ t, .sent t ∈ new → t + 1000 ≤ next') : Waiting start next' s' where
  started := by
    rw [htrace, List.head?_append, hw.started]
    rfl
  since := hclock ▸ hw.since
  unseen := by
    rw [htrace]
    simp only [List.mem_append, not_or]
    exact ⟨⟨hw.unseen.1, hunseen.1⟩, hw.unseen.2, hunseen.2⟩
  apart t ht := by
    rw [htrace] at ht
    rcases List.mem_append.mp ht with ht | ht
    · exact Int.le_trans (hw.apart t ht) hle
    · exact hsent t ht

/-! ## Steps of the handshake -/

section

variable {s : Paced σ} {start next now : Int}

theorem head_append {trace : List HandshakeEvent} {first : HandshakeEvent}
    (hfirst : trace.head? = some first) (new : List HandshakeEvent) :
    (trace ++ new).head? = some first := by
  rw [List.head?_append, hfirst]
  rfl

theorem PacedInv.commands_append {new : List HandshakeEvent} (hs : PacedInv timeoutMs s)
    (hnew : new.filterMap HandshakeEvent.command = []) :
    s.meeting.commands = (s.trace ++ new).filterMap HandshakeEvent.command := by
  rw [List.filterMap_append, hnew, List.append_nil, hs.commands]

/-- The handshake returns after an event that neither sends nor returns. -/
theorem PacedInv.returns (hs : PacedInv timeoutMs s) {event : HandshakeEvent} {result : Int}
    (hquiet : event.command = none)
    (hevent : Always (HandshakeEvent.Paced timeoutMs) (s.trace ++ [event]))
    (hreturned : HandshakeEvent.Paced timeoutMs (s.trace ++ [event]) (.returned result)) :
    PacedInv timeoutMs { s with
      meeting := { s.meeting with pc := .done result }
      trace := s.trace ++ [event, .returned result] } := by
  refine ⟨?_, ?_, hs.commands_append ?_⟩
  · show HandshakeEvent.returned result ∈ s.trace ++ _
    simp
  · rw [List.append_cons s.trace]
    exact (always_snoc ..).mpr ⟨hevent, hreturned⟩
  · rw [List.filterMap_cons_none hquiet]
    rfl

theorem PacedInv.entry (hs : PacedInv timeoutMs s) (hpc : s.meeting.pc = .entry) :
    PacedInv timeoutMs (s.handshake timeoutMs) := by
  have htrace := hs.trace
  rw [hpc] at htrace
  have hempty : s.trace = [] := htrace
  unfold Paced.handshake
  simp only [handshakeStep, handshakeEvents, hpc]
  refine ⟨⟨?_, Int.le_refl _, ?_, ?_⟩, (always_snoc ..).mpr ⟨hs.events, trivial⟩,
    hs.commands_append rfl⟩
  · rw [hempty]
    rfl
  · simp [hempty]
  · simp [hempty]

theorem PacedInv.test (hs : PacedInv timeoutMs s) (hpc : s.meeting.pc = .test start next) :
    PacedInv timeoutMs (s.handshake timeoutMs) := by
  have htrace := hs.trace
  rw [hpc] at htrace
  have hw : Waiting start next s := htrace
  have hevents : Always (HandshakeEvent.Paced timeoutMs)
      (s.trace ++ [.sawAnswered s.meeting.client.pingAnswered]) :=
    (always_snoc ..).mpr ⟨hs.events, trivial⟩
  unfold Paced.handshake
  simp only [handshakeStep, handshakeEvents, hpc]
  split_ifs with hanswered
  · rw [hanswered] at hevents ⊢
    exact ⟨⟨head_append hw.started _, hw.since, s.trace, rfl⟩, hevents, hs.commands_append rfl⟩
  · rw [Bool.not_eq_true] at hanswered
    rw [hanswered] at hevents ⊢
    refine ⟨⟨?_, s.trace, rfl⟩, hevents, hs.commands_append rfl⟩
    exact hw.append rfl rfl (by simp) (Int.le_refl _) (by simp)

theorem PacedInv.unanswered (hs : PacedInv timeoutMs s)
    (hpc : s.meeting.pc = .unanswered start next) : PacedInv timeoutMs (s.handshake timeoutMs) := by
  have htrace := hs.trace
  rw [hpc] at htrace
  obtain ⟨hw, front, hfront⟩ := htrace
  have hread : Always (HandshakeEvent.Paced timeoutMs) (s.trace ++ [.readClock s.clock]) :=
    (always_snoc ..).mpr ⟨hs.events, trivial⟩
  have hlast : s.trace ++ [.readClock s.clock] =
      front ++ [.sawAnswered false, .readClock s.clock] := by
    rw [hfront, List.append_assoc]
    rfl
  unfold Paced.handshake
  simp only [handshakeStep, handshakeEvents, hpc]
  split_ifs with htime
  · have hreturned : HandshakeEvent.Paced timeoutMs (s.trace ++ [.readClock s.clock])
        (.returned (-1)) := .inl ⟨rfl, front, start, s.clock, head_append hw.started _, .inl ⟨hlast, htime⟩⟩
    exact hs.returns rfl hread hreturned
  · refine ⟨⟨?_, by omega, front, hlast⟩, hread, hs.commands_append rfl⟩
    exact hw.append rfl rfl (by simp) (Int.le_refl _) (by simp)

theorem PacedInv.early (hs : PacedInv timeoutMs s) (hpc : s.meeting.pc = .early start next now) :
    PacedInv timeoutMs (s.handshake timeoutMs) := by
  have htrace := hs.trace
  rw [hpc] at htrace
  obtain ⟨hw, htime, front, hfront⟩ := htrace
  have hsaw : ∀ value, Always (HandshakeEvent.Paced timeoutMs) (s.trace ++ [.sawLost value]) :=
    fun value => (always_snoc ..).mpr ⟨hs.events, trivial⟩
  unfold Paced.handshake
  simp only [handshakeStep, handshakeEvents, hpc]
  split_ifs with hlost hnext
  · have hlast : s.trace ++ [.sawLost true] =
        front ++ [.sawAnswered false, .readClock now, .sawLost true] := by
      rw [hfront, List.append_assoc]
      rfl
    have hreturned : HandshakeEvent.Paced timeoutMs (s.trace ++ [.sawLost true])
        (.returned (-1)) := .inl ⟨rfl, front, start, now, head_append hw.started _, .inr hlast⟩
    exact hs.returns rfl (hsaw true) hreturned
  · have hsent : HandshakeEvent.Paced timeoutMs (s.trace ++ [.sawLost false]) (.sent now) := by
      refine ⟨fun t ht => ?_, ⟨start, head_append hw.started _, htime⟩, ?_, ?_⟩
      · have hmem : .sent t ∈ s.trace := by simpa using ht
        exact Int.le_trans (hw.apart t hmem) hnext
      · simpa using hw.unseen.1
      · simpa using hw.unseen.2
    refine ⟨?_, ?_, ?_⟩
    · refine hw.append rfl rfl (by simp) (by omega) fun t ht => ?_
      have ht : t = now := by simpa using ht
      omega
    · rw [List.append_cons s.trace]
      exact (always_snoc ..).mpr ⟨hsaw false, hsent⟩
    · rw [List.filterMap_append, ← hs.commands]
      rfl
  · refine ⟨?_, hsaw false, hs.commands_append rfl⟩
    exact hw.append rfl rfl (by simp) (Int.le_refl _) (by simp)

theorem PacedInv.answered (hs : PacedInv timeoutMs s) (hpc : s.meeting.pc = .answered start)
    (hprompt : s.Prompt) : PacedInv timeoutMs (s.handshake timeoutMs) := by
  have htrace := hs.trace
  rw [hpc] at htrace
  obtain ⟨hhead, hsince, front, hfront⟩ := htrace
  have hfits : toInt32 (s.clock - start) = s.clock - start := by
    have hless := hprompt start hpc
    exact toInt32_of_fits (by omega) hless
  have hread : Always (HandshakeEvent.Paced timeoutMs) (s.trace ++ [.readClock s.clock]) :=
    (always_snoc ..).mpr ⟨hs.events, trivial⟩
  have hreturned : HandshakeEvent.Paced timeoutMs (s.trace ++ [.readClock s.clock])
      (.returned (s.clock - start)) := by
    refine .inr ⟨by omega, front, start, s.clock, head_append hhead _, ?_, rfl⟩
    rw [hfront, List.append_assoc]
    rfl
  unfold Paced.handshake
  simp only [handshakeStep, handshakeEvents, hpc, hfits]
  exact hs.returns rfl hread hreturned

theorem PacedInv.done {result : Int} (hs : PacedInv timeoutMs s)
    (hpc : s.meeting.pc = .done result) : PacedInv timeoutMs (s.handshake timeoutMs) := by
  have hstays : s.handshake timeoutMs = s := by
    unfold Paced.handshake
    simp only [handshakeStep, handshakeEvents, hpc, List.append_nil]
  rw [hstays]
  exact hs

end

/-! ## Runs -/

/-- Any step keeps the invariant, if the handshake returns promptly. -/
theorem PacedInv.step {s s' : Paced σ} (hs : PacedInv timeoutMs s)
    (hstep : PacedStep h e timeoutMs s s')
    (hprompt : ∀ result, s'.meeting.pc = .done result → s.Prompt) : PacedInv timeoutMs s' := by
  cases hstep with
  | tick now _ hnow => exact ⟨hs.trace.later rfl hnow, hs.events, hs.commands⟩
  | others m _ hm hpc hcommands =>
    refine ⟨?_, hs.events, hcommands.trans hs.commands⟩
    show TraceAt timeoutMs _ m.pc
    rw [hpc]
    exact hs.trace.later rfl (Int.le_refl _)
  | handshake _ hlive =>
    cases hpc : s.meeting.pc with
    | entry => exact hs.entry hpc
    | test start next => exact hs.test hpc
    | unanswered start next => exact hs.unanswered hpc
    | early start next now => exact hs.early hpc
    | answered start =>
      have hdone : (s.handshake timeoutMs).meeting.pc = .done (toInt32 (s.clock - start)) := by
        simp only [Paced.handshake, handshakeStep, hpc]
      exact hs.answered hpc (hprompt _ hdone)
    | done result => exact hs.done hpc

/-- In every run of the threads with a clock that never goes back the handshake keeps its pace, if it
returns before the time since its start exceeds an `int`. -/
theorem handshake_paced {host : σ} {sock : Network.Socket} {clock : Int} {s : Paced σ}
    (hrun : PromptRun h e timeoutMs (.initial host sock clock) s) :
    HandshakePaced timeoutMs s := by
  have hinv : PacedInv timeoutMs s := by
    induction hrun with
    | refl => exact pacedInv_initial host sock clock
    | tail _ hstep ih => exact ih.step hstep.1 hstep.2
  refine ⟨hinv.events, hinv.commands, fun result hpc => ?_⟩
  have htrace := hinv.trace
  rw [hpc] at htrace
  exact htrace

/-! ## An answered handshake -/

/-- The handshake has sent its command. -/
def pingSent : Paced Unit :=
  ((((Paced.initial () (.receiving []) 0).handshake 2000).handshake 2000).handshake 2000).handshake
    2000

/-- It has been answered, and has seen it; the clock goes on to `now`. -/
def pingSeen (now : Int) : Paced Unit :=
  { meeting := { pingClosed (pingOpened pingSent.meeting) with pc := .answered 0 }
    clock := now
    trace := pingSent.trace ++ [.sawAnswered true] }

theorem pingSeen_run {now : Int} (hnow : 0 ≤ now) :
    PromptRun pingHost .little 2000 (.initial () (.receiving []) 0) (pingSeen now) := by
  obtain ⟨hanswered, hlive⟩ := pingClosed_client pingSent.meeting
  let served : Paced Unit := { pingSent with meeting := pingClosed (pingOpened pingSent.meeting) }
  have hseen : served.handshake 2000 = pingSeen 0 := by
    have hstep : handshakeStep 2000 0 served.meeting = (pingSeen 0).meeting := if_pos hanswered
    have hevents : handshakeEvents 2000 0 served.meeting = [.sawAnswered true] :=
      congrArg (fun value => [HandshakeEvent.sawAnswered value]) hanswered
    show Paced.mk (handshakeStep 2000 0 served.meeting) 0
      (pingSent.trace ++ handshakeEvents 2000 0 served.meeting) = _
    rw [hstep, hevents]
    rfl
  refine Relation.ReflTransGen.trans (.single ⟨.handshake _ rfl, nofun⟩) ?_
  refine Relation.ReflTransGen.trans (.single ⟨.handshake _ rfl, nofun⟩) ?_
  refine Relation.ReflTransGen.trans (.single ⟨.handshake _ rfl, nofun⟩) ?_
  refine Relation.ReflTransGen.trans (.single ⟨.handshake _ rfl, nofun⟩) ?_
  refine Relation.ReflTransGen.trans
    (.single ⟨.others _ pingSent (pingOpened_step 2000 rfl) rfl rfl, nofun⟩) ?_
  refine Relation.ReflTransGen.trans
    (.single ⟨.others _ _ (pingClosed_step 2000 rfl) rfl rfl, nofun⟩) ?_
  refine Relation.ReflTransGen.tail (b := pingSeen 0) ?_ ⟨.tick now _ hnow, nofun⟩
  rw [← hseen]
  refine .single ⟨.handshake served hlive, ?_⟩
  rw [hseen]
  exact nofun

/-- The command is sent once, and the handshake takes 7 ms. -/
theorem handshake_paced_answered : ∃ s : Paced Unit,
    PromptRun pingHost .little 2000 (.initial () (.receiving []) 0) s ∧ s.meeting.pc = .done 7 ∧
      HandshakePaced 2000 s := by
  have hlive := (pingClosed_client pingSent.meeting).2
  have hrun : PromptRun pingHost .little 2000 (.initial () (.receiving []) 0)
      ((pingSeen 7).handshake 2000) := by
    refine (pingSeen_run (by decide)).tail ⟨.handshake _ hlive, fun _ _ start hpc => ?_⟩
    cases hpc
    decide
  exact ⟨_, hrun, rfl, handshake_paced hrun⟩

/-- When the clock goes on for 2³² - 1 ms after the answer was seen, the handshake returns -1. -/
theorem not_handshake_paced : ∃ s : Paced Unit,
    PacedRun pingHost .little 2000 (.initial () (.receiving []) 0) s ∧ s.meeting.pc = .done (-1) ∧
      ¬ HandshakePaced 2000 s := by
  have hlive := (pingClosed_client pingSent.meeting).2
  have hnow : (0 : Int) ≤ 4294967295 := by decide
  have hseen : PacedRun pingHost .little 2000 (.initial () (.receiving []) 0)
      (pingSeen 4294967295) :=
    (pingSeen_run hnow).lift id fun _ _ hstep => hstep.1
  refine ⟨_, hseen.tail (.handshake _ hlive), rfl, fun hpaced => ?_⟩
  have hreturned := hpaced.events (pingSent.trace ++ [.sawAnswered true, .readClock 4294967295])
    (.returned (-1)) [] rfl
  rcases hreturned with ⟨-, front, start, now, -, ⟨hlast, -⟩ | hlast⟩ | ⟨hnonneg, -⟩
  · cases (List.append_inj' hlast rfl).2
  · rw [List.append_cons front] at hlast
    cases (List.append_inj' hlast rfl).2
  · exact absurd hnonneg (by decide)

end Ps2link

import Ps2Client.Main.Proofs.ProcessProofs
import Ps2Client.Ps2link.Proofs.SocketsProofs

/-!
# Proofs: the exit status of the process

What has been sent and printed when `main` is at each of its places. The threads beside it change none of
that.
-/

namespace Main

open CMemory Network Ps2link History

variable {σ κ : Type} {h : Host σ} {k : Kernel κ} {e : Endian} {i : Invocation}
variable {p p' : Process σ κ}

/-! ## The threads beside `main` -/

/-- What a step of the other threads, or of the world, leaves as it is. An answer to the handshake, a
lost connection and what has been scanned remain. -/
structure Beside (p p' : Process σ κ) : Prop where
  started : p.pc ≠ .starting
  pc : p'.pc = p.pc
  calls : p'.calls = p.calls
  command : p'.command = p.command
  messages : p'.messages = p.messages
  loop : p'.loop = p.loop
  handshake : p'.meeting.pc = p.meeting.pc
  answered : PingAnswered p.meeting.history → PingAnswered p'.meeting.history
  lost : p.meeting.client.lost = true → p'.meeting.client.lost = true
  packets : p.packets <+: p'.packets
  sockets : p'.sockets = p.sockets
  net : p'.net = p.net

/-- A ping that was answered stays answered when more requests are served, -/
theorem serve_answered (sock : Socket) (kind : Kind) (packet : List Byte) {m : Meeting σ}
    (hm : PingAnswered m.history) : PingAnswered (m.serve h e sock kind packet).history :=
  (once_snoc _ _ _).mpr (Or.inl hm)

/-- and a connection that was lost stays lost. -/
theorem serve_lost (sock : Socket) {kind : Kind} {packet : List Byte}
    (hkind : net32 packet 0 = kind.request) {m : Meeting σ} (hm : m.client.lost = true) :
    (m.serve h e sock kind packet).client.lost = true :=
  (Prod.mk.inj (serve_shared h e sock m hkind)).2.trans hm

/-- A step of the process is one of `main`, or one beside it. -/
theorem ProcessStep.main_or_beside (hstep : ProcessStep h k e i p p') :
    (∃ now stack, p.Live ∧ p' = p.main k e i now stack) ∨ Beside p p' := by
  have hsame : p.packets <+: p.packets := List.prefix_refl _
  cases hstep with
  | main now stack _ hlive => exact Or.inl ⟨now, stack, hlive, rfl⟩
  | receive datagram _ hruns hphase =>
    exact Or.inr ⟨hruns.2.1, rfl, rfl, rfl, rfl, rfl, rfl, id, id, hsame, rfl, rfl⟩
  | print packet _ hruns hphase =>
    exact Or.inr ⟨hruns.2.1, rfl, rfl, rfl, rfl, rfl, rfl, id, id, hsame, rfl, rfl⟩
  | scan packet _ hruns hphase =>
    exact Or.inr ⟨hruns.2.1, rfl, rfl, rfl, rfl, rfl, rfl, id, id, List.prefix_append _ _, rfl, rfl⟩
  | consoleActivity now _ hruns hphase =>
    exact Or.inr ⟨hruns.2.1, rfl, rfl, rfl, rfl, rfl, rfl, id, id, hsame, rfl, rfl⟩
  | serve sock kind packet _ hruns hkind hforeign =>
    exact Or.inr ⟨hruns.2.1, rfl, rfl, rfl, rfl, rfl, rfl, serve_answered sock kind packet,
      serve_lost sock hkind, hsame, rfl, rfl⟩
  | requestActivity now _ hruns =>
    exact Or.inr ⟨hruns.2.1, rfl, rfl, rfl, rfl, rfl, rfl, id, id, hsame, rfl, rfl⟩
  | lost _ hruns =>
    exact Or.inr ⟨hruns.2.1, rfl, rfl, rfl, rfl, rfl, rfl, id, fun _ => rfl, hsame, rfl, rfl⟩
  | world host sock _ hstarted =>
    exact Or.inr ⟨hstarted, rfl, rfl, rfl, rfl, rfl, rfl, id, id, hsame, rfl, rfl⟩

/-! ## Where `main` is -/

/-- What has been sent and printed when `main` is where it is. -/
def Process.Progress (i : Invocation) (p : Process σ κ) : Prop :=
  match p.pc with
  | .starting => p.calls = [] ∧ p.messages = [] ∧ p.loop = .entry ∧ p.meeting.pc = .entry
  | .handshaking =>
    i.needsHost = true ∧ p.Called i [] ∧ p.messages = [] ∧ p.loop = .entry ∧
      ∀ result, p.meeting.pc ≠ .done result
  | .performing => p.Called i [] ∧ p.Answered i ∧ p.messages = [] ∧ p.loop = .entry
  | .looping =>
    (∃ own, p.Called i own ∧ i.Calls (0 ≤ ·) own) ∧ p.Answered i ∧ p.messages = [] ∧
      ¬ p.loop.Done ∧ (i.wait = 0 → p.loop = .entry) ∧ (p.loop = .idle → 0 < i.wait)
  | .leaving status | .exited status => ExitReason i p status

/-- A step of a thread calls no command function. -/
theorem Beside.called (hbeside : Beside p p') {own : List CommandCall} (hp : p.Called i own) :
    p'.Called i own := by
  unfold Process.Called
  rw [hbeside.calls]
  exact hp

theorem Beside.answered_if (hbeside : Beside p p') (hp : p.Answered i) : p'.Answered i :=
  fun hneeds => hbeside.answered (hp hneeds)

/-- A reason remains when more is scanned, or the connection is lost later. -/
theorem LoopReason.mono {lost lost' : Bool} {packets : List (List Byte)} {status : Int}
    {messages : List String} (hreason : LoopReason i lost packets status messages)
    (hlost : lost = true → lost' = true) : LoopReason i lost' packets status messages := by
  cases hreason with
  | noWait hwait => exact .noWait hwait
  | marker pc recorded hstatus => exact .marker pc recorded hstatus
  | lost hwait hset hmarker => exact .lost hwait (hlost hset) hmarker
  | idle hwait hmarker => exact .idle hwait hmarker
  | timeout hwait hmarker hnone => exact .timeout hwait hmarker hnone

/-- The reason for the exit stays the reason. -/
theorem Beside.exitReason (hbeside : Beside p p') {status : Int} (hp : ExitReason i p status) :
    ExitReason i p' status := by
  cases hp with
  | unconnected status message hstatus hcalls hmessages =>
    exact .unconnected status message hstatus (hbeside.calls.trans hcalls)
      (hbeside.messages.trans hmessages)
  | unanswered hneeds hcalls hresult hmessages =>
    refine .unanswered hneeds (hbeside.called hcalls) ?_ (hbeside.messages.trans hmessages)
    rw [hbeside.handshake]
    exact hresult
  | unsent own hcalls hown hcommand hanswered hmessages =>
    exact .unsent own (hbeside.called hcalls) hown hcommand (hbeside.answered_if hanswered)
      (hbeside.messages.trans hmessages)
  | returned status own packets hcalls hown hanswered hpackets hreason =>
    refine .returned status own packets (hbeside.called hcalls) hown (hbeside.answered_if hanswered)
      (hpackets.trans hbeside.packets) ?_
    rw [hbeside.messages]
    exact hreason.mono hbeside.lost

/-- A step of a thread leaves `main` where it is. -/
theorem Beside.progress (hbeside : Beside p p') (hp : p.Progress i) : p'.Progress i := by
  unfold Process.Progress at hp ⊢
  rw [hbeside.pc, hbeside.messages, hbeside.loop, hbeside.handshake]
  cases hpc : p.pc with
  | starting => exact absurd hpc hbeside.started
  | handshaking =>
    rw [hpc] at hp
    obtain ⟨hneeds, hcalled, hrest⟩ := hp
    exact ⟨hneeds, hbeside.called hcalled, hrest⟩
  | performing =>
    rw [hpc] at hp
    obtain ⟨hcalled, hanswered, hrest⟩ := hp
    exact ⟨hbeside.called hcalled, hbeside.answered_if hanswered, hrest⟩
  | looping =>
    rw [hpc] at hp
    obtain ⟨⟨own, hcalled, hown⟩, hanswered, hrest⟩ := hp
    exact ⟨⟨own, hbeside.called hcalled, hown⟩, hbeside.answered_if hanswered, hrest⟩
  | leaving status =>
    rw [hpc] at hp
    exact hbeside.exitReason hp
  | exited status =>
    rw [hpc] at hp
    exact hbeside.exitReason hp

/-! ## The steps of `main` -/

/-- When `ps2link_connect` fails, it prints a message. -/
theorem connect_failed {c : Connected κ} {hostname : List Byte} {what : Word} {timeoutMs : Int}
    {n : Net κ} (hc : c = Ps2link.connect k hostname what timeoutMs n) :
    (c.result = 0 ∧ c.message = none) ∨
      (c.result = EXIT_PORTBUSY ∨ c.result = EXIT_NOCONNECT) ∧ ∃ message, c.message = some message := by
  subst hc
  rcases Ps2link.connect_cases k hostname what timeoutMs n with
    ⟨-, hresult, hmessage, -⟩ | ⟨-, hresult, hmessage, -⟩ | ⟨-, hresult, hmessage, -⟩ |
      ⟨-, -, hresult, hmessage, -⟩
  · exact Or.inr ⟨Or.inl hresult, hmessage⟩
  · exact Or.inr ⟨Or.inr hresult, hmessage⟩
  · exact Or.inr ⟨Or.inr hresult, hmessage⟩
  · exact Or.inl ⟨hresult, hmessage⟩

/-- `ps2link_connect` has sent nothing, and ends the program when it fails. -/
theorem connect_progress (now : Int) (hpc : p.pc = .starting) (hp : p.Progress i) :
    (p.connect k i now).Progress i := by
  unfold Process.Progress at hp
  rw [hpc] at hp
  obtain ⟨hcalls, hmessages, hloop, hhandshake⟩ := hp
  have hcalled : ∀ q : Process σ κ, q.calls = p.calls → q.Called i [] := by
    intro q hq
    refine ⟨[], ?_, nofun⟩
    rw [hq, hcalls]
    rfl
  obtain ⟨c, hc, ⟨hresult, heq⟩ | ⟨hresult, heq⟩⟩ := connect_cases k i now p
  · rw [heq]
    rcases connect_failed hc with ⟨hzero, -⟩ | ⟨hstatus, message, hmessage⟩
    · exact absurd hzero hresult
    · refine .unconnected c.result message hstatus hcalls ?_
      show p.messages ++ c.message.toList = _
      rw [hmessages, hmessage]
      rfl
  · have hsilent : p.messages ++ c.message.toList = [] := by
      rcases connect_failed hc with ⟨-, hmessage⟩ | ⟨hstatus, -⟩
      · rw [hmessages, hmessage]
        rfl
      · rw [hresult] at hstatus
        rcases hstatus with hstatus | hstatus <;> cases hstatus
    rw [heq]
    unfold Process.Progress
    dsimp only
    cases hneeds : i.needsHost with
    | true =>
      refine ⟨rfl, hcalled _ rfl, hsilent, hloop, ?_⟩
      intro result hdone
      rw [show (p.meeting).pc = .done result from hdone] at hhandshake
      cases hhandshake
    | false =>
      refine ⟨hcalled _ rfl, ?_, hsilent, hloop⟩
      intro hneeds'
      rw [hneeds] at hneeds'
      cases hneeds'

/-- A step of the handshake may send its command, and changes nothing else that counts. -/
theorem shake_called (now : Int) (stack : List Byte) (hneeds : i.needsHost = true)
    (hp : p.Called i []) :
    (p.shake e now stack).Called i [] := by
  obtain ⟨pings, hcalls, hpings⟩ := hp
  unfold Process.shake
  dsimp only
  split
  · exact ⟨pings, hcalls, hpings⟩
  · refine ⟨pings ++ [⟨pingCommand, stack, (pingCommand.call e stack p.command).1⟩], ?_, ?_⟩
    · show p.calls ++ [_] = _
      rw [hcalls]
      simp
    · intro c hc
      rcases List.mem_append.mp hc with hc | hc
      · exact hpings c hc
      · rw [List.mem_singleton.mp hc]
        exact ⟨rfl, hneeds⟩

theorem shake_frame (now : Int) (stack : List Byte) (p : Process σ κ) :
    (p.shake e now stack).messages = p.messages ∧ (p.shake e now stack).loop = p.loop := by
  unfold Process.shake
  dsimp only
  split <;> exact ⟨rfl, rfl⟩

/-- The handshake has sent only its own commands. -/
theorem handshake_progress (now : Int) (stack : List Byte) (hpc : p.pc = .handshaking)
    (hp : p.Progress i) (hinv : HandshakeInv (p.handshake e now stack).meeting) :
    (p.handshake e now stack).Progress i := by
  unfold Process.Progress at hp
  rw [hpc] at hp
  obtain ⟨hneeds, hcalled, hmessages, hloop, -⟩ := hp
  have hcalled' := shake_called (e := e) now stack hneeds hcalled
  obtain ⟨hmessages', hloop'⟩ := shake_frame (e := e) now stack p
  rw [hmessages] at hmessages'
  rw [hloop] at hloop'
  rcases handshake_cases (e := e) now stack p with
    ⟨result, hdone, hresult, heq⟩ | ⟨result, hdone, hresult, heq⟩ | ⟨hnot, heq⟩
  · rw [heq]
    refine .unanswered hneeds hcalled' ⟨result, hdone, hresult⟩ ?_
    show (p.shake e now stack).messages ++ [_] = _
    rw [hmessages']
    rfl
  · rw [heq] at hinv ⊢
    refine ⟨hcalled', ?_, hmessages', hloop'⟩
    intro _
    exact hinv.ping.answered.mp (hinv.returned result hdone hresult)
  · rw [heq]
    unfold Process.Progress
    rw [shake_pc, hpc]
    exact ⟨hneeds, hcalled', hmessages', hloop', hnot⟩

/-- The command function is called once. -/
theorem perform_progress (stack : List Byte) (hpc : p.pc = .performing) (hp : p.Progress i) :
    (p.perform e i stack).Progress i := by
  unfold Process.Progress at hp
  rw [hpc] at hp
  obtain ⟨⟨pings, hcalls, hpings⟩, hanswered, hmessages, hloop⟩ := hp
  have hentry : ¬ p.loop.Done := by
    rw [hloop]
    rintro ⟨v, hv⟩
    cases hv
  have hidle : p.loop = .idle → 0 < i.wait := by
    rw [hloop]
    exact nofun
  have hcalled : ∀ c, (p.send e c stack).Called i [⟨c, stack, (c.call e stack p.command).1⟩] := by
    intro c
    refine ⟨pings, ?_, hpings⟩
    show p.calls ++ [_] = _
    rw [hcalls, List.append_nil]
  rcases perform_cases e i stack p with
    ⟨hcommand, heq⟩ | ⟨c, hcommand, hresult, heq⟩ | ⟨c, hcommand, hresult, heq⟩
  · rw [heq]
    refine ⟨⟨[], ⟨pings, hcalls, hpings⟩, ?_⟩, hanswered, hmessages, hentry, fun _ => hloop, hidle⟩
    unfold Invocation.Calls
    rw [hcommand]
  · rw [heq]
    refine .unsent _ (hcalled c) ?_ (by rw [hcommand]; exact nofun) hanswered ?_
    · unfold Invocation.Calls
      rw [hcommand]
      exact ⟨stack, _, rfl, hresult⟩
    · show p.messages ++ [_] = _
      rw [hmessages]
      rfl
  · rw [heq]
    refine ⟨⟨_, hcalled c, ?_⟩, hanswered, hmessages, hentry, fun _ => hloop, hidle⟩
    unfold Invocation.Calls
    rw [hcommand]
    exact ⟨stack, _, rfl, hresult⟩

/-- With a timeout of 0 the main loop returns at once. -/
theorem mainStep_entry {marker : Option (List Byte)} {now : Int} {s : System}
    (hs : s.mainPc = .entry) : (mainStep marker 0 now s).mainPc = .done EXIT_OK := by
  unfold mainStep
  rw [hs]
  rfl

/-- It comes to the idle timeout only if there is one. -/
theorem mainStep_idle {marker : Option (List Byte)} {timeout now : Int} {s : System}
    (hidle : (mainStep marker timeout now s).mainPc = .idle) : 0 < timeout := by
  unfold mainStep at hidle
  cases hpc : s.mainPc with
  | entry =>
    simp only [hpc] at hidle
    split at hidle <;> cases hidle
  | top =>
    simp only [hpc] at hidle
    split at hidle <;> cases hidle
  | checked activity lost =>
    simp only [hpc] at hidle
    split at hidle
    · cases hidle
    · split at hidle
      · rename_i hpassed
        exact hpassed.1
      · cases hidle
  | grace =>
    simp only [hpc] at hidle
    cases hidle
  | idle =>
    simp only [hpc] at hidle
    cases hidle
  | done v =>
    simp only [hpc] at hidle
    cases hidle

/-- When the main loop returns, one of the reasons is there. -/
theorem loop_reason {status now : Int} (hinv : p.system.Inv i.marker) (hnot : ¬ p.loop.Done)
    (hwait : i.wait = 0 → p.loop = .entry) (hidle : p.loop = .idle → 0 < i.wait)
    (hdone : (mainStep i.marker i.wait now p.system).mainPc = .done status) :
    LoopReason i p.meeting.client.lost p.packets status (loopMessage p.loop status) := by
  by_cases hzero : i.wait = 0
  · have hentry := hwait hzero
    rw [hzero, mainStep_entry hentry] at hdone
    rw [← MainPc.done.inj hdone, hentry]
    exact .noWait hzero
  · have hreturns := mainStep_returns hzero hinv hnot hdone
    have hseen := hreturns.seen
    cases hstatus : firstStatus i.marker (countedLines p.loop p.packets) with
    | some recorded =>
      rw [hreturns.recorded recorded hstatus]
      exact .marker p.loop recorded hstatus
    | none =>
      rw [show firstStatus i.marker (countedLines p.system.mainPc p.system.packets) = none from
        hstatus] at hseen
      rcases hreturns.noMarker hseen with ⟨hgrace, hlost, rfl⟩ | ⟨hpc, rfl⟩
      · have hloop : p.loop = .grace := hgrace
        rw [hloop] at hstatus ⊢
        exact .lost hzero hlost hstatus
      · have hloop : p.loop = .idle := hpc
        rw [hloop] at hstatus ⊢
        by_cases hmarker : i.marker = none
        · rw [if_pos hmarker]
          exact .idle (hidle hloop) hmarker
        · rw [if_neg hmarker]
          exact .timeout (hidle hloop) hmarker hstatus

theorem loopStep_frame (now : Int) (p : Process σ κ) :
    (loopStep k i now p).calls = p.calls ∧ (loopStep k i now p).messages = p.messages ∧
      (loopStep k i now p).meeting.history = p.meeting.history := by
  unfold loopStep Process.closeCommand
  split <;> exact ⟨rfl, rfl, rfl⟩

/-- The main loop sends nothing, and returns for a reason. -/
theorem mainloop_progress (now : Int) (hpc : p.pc = .looping) (hp : p.Progress i)
    (hinv : p.system.Inv i.marker) : (p.mainloop k i now).Progress i := by
  unfold Process.Progress at hp
  rw [hpc] at hp
  obtain ⟨⟨own, ⟨pings, hcalls, hpings⟩, hown⟩, hanswered, hmessages, hnot, hwait, hidle⟩ := hp
  obtain ⟨hcalls', hmessages', hhistory⟩ := loopStep_frame (k := k) (i := i) now p
  have hcalled : (loopStep k i now p).Called i own := ⟨pings, hcalls'.trans hcalls, hpings⟩
  have hanswered' : (loopStep k i now p).Answered i := by
    intro hneeds
    rw [hhistory]
    exact hanswered hneeds
  rcases mainloop_cases k i now p with ⟨status, hdone, heq⟩ | ⟨hrunning, heq⟩
  · have hsystem := loopStep_system (k := k) (i := i) now p
    have hframe := mainStep_frame i.marker i.wait now p.system
    have hpackets : (loopStep k i now p).packets = p.packets := by
      have := congrArg System.packets (hsystem.trans hframe)
      exact this
    have hlost : (loopStep k i now p).meeting.client.lost = p.meeting.client.lost := by
      have := congrArg System.lost (hsystem.trans hframe)
      exact this
    rw [heq]
    refine .returned status own p.packets hcalled hown hanswered' ?_ ?_
    · exact hpackets ▸ List.prefix_refl _
    · show LoopReason i (loopStep k i now p).meeting.client.lost p.packets status
        ((loopStep k i now p).messages ++ loopMessage p.loop status)
      rw [hmessages', hmessages, hlost]
      exact loop_reason hinv hnot hwait hidle hdone
  · rw [heq]
    unfold Process.Progress
    rw [loopStep_pc, hpc]
    refine ⟨⟨own, hcalled, hown⟩, hanswered', hmessages'.trans hmessages, hrunning, ?_, mainStep_idle⟩
    intro hzero
    refine absurd ?_ hrunning
    rw [hzero]
    exact ⟨EXIT_OK, mainStep_entry (hwait hzero)⟩

/-- Disconnecting leaves the reason as it is. -/
theorem exit_progress {status : Int} (hpc : p.pc = .leaving status) (hp : p.Progress i) :
    (p.exit k status).Progress i := by
  unfold Process.Progress at hp
  rw [hpc] at hp
  show ExitReason i _ status
  cases hp with
  | unconnected status message hstatus hcalls hmessages =>
    exact .unconnected status message hstatus hcalls hmessages
  | unanswered hneeds hcalls hresult hmessages => exact .unanswered hneeds hcalls hresult hmessages
  | unsent own hcalls hown hcommand hanswered hmessages =>
    exact .unsent own hcalls hown hcommand hanswered hmessages
  | returned status own packets hcalls hown hanswered hpackets hreason =>
    exact .returned status own packets hcalls hown hanswered hpackets hreason

/-! ## Runs -/

/-- Every step of the process keeps the account of what was sent and why, -/
theorem ProcessStep.progress (hstep : ProcessStep h k e i p p') (hp : p.Progress i)
    (hloop : p.system.Inv i.marker) (hmeeting : HandshakeInv p'.meeting) : p'.Progress i := by
  rcases hstep.main_or_beside with ⟨now, stack, -, rfl⟩ | hbeside
  · unfold Process.main at hmeeting ⊢
    cases hpc : p.pc with
    | starting => exact connect_progress now hpc hp
    | handshaking =>
      rw [hpc] at hmeeting
      exact handshake_progress now stack hpc hp hmeeting
    | performing => exact perform_progress stack hpc hp
    | looping => exact mainloop_progress now hpc hp hloop
    | leaving status => exact exit_progress hpc hp
    | exited status => exact hp
  · exact hbeside.progress hp

variable {host : σ} {request command : Socket} {kernel : κ}

/-- and every run. -/
theorem ProcessRun.progress (hrun : ProcessRun h k e i (.initial host request command kernel) p) :
    p.Progress i := by
  induction hrun with
  | refl => exact ⟨rfl, rfl, rfl, rfl⟩
  | tail hbefore hstep ih =>
    obtain ⟨activity, hloop⟩ := (ProcessRun.loops hbefore).1
    exact hstep.progress ih hloop.inv
      ((ProcessRun.handshakes (hbefore.tail hstep)).inv (handshakeInv_initial host request))

end Main

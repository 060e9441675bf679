import Ps2Client.Main.Proofs.ExitProofs

/-!
# Proofs: the sockets of the process

From `ps2link_connect` to `ps2link_disconnect` the open sockets are those of the three variables, and
those of the console and the request have a thread that is not cancelled. The threads beside `main` open
and close none.
-/

namespace Main

open CMemory Network Ps2link History

variable {σ κ : Type} {h : Host σ} {k : Kernel κ} {e : Endian} {i : Invocation}
variable {p p' : Process σ κ}

/-- The sockets that are open, and those with a thread that is not cancelled, where `main` is. -/
def Process.Holding (p : Process σ κ) (t : Table) : Prop :=
  match p.pc with
  | .starting => t = ⟨∅, ∅⟩
  | .handshaking | .performing | .looping | .leaving _ => p.sockets.Has p.sockets.served t
  | .exited _ => p.sockets.Has ∅ t

/-- The sockets that `main` uses where it is. -/
def Process.Ready (i : Invocation) (p : Process σ κ) : Prop :=
  match p.pc with
  | .handshaking => 0 ≤ p.sockets.request ∧ 0 ≤ p.sockets.command
  | .performing => i.command ≠ none → 0 ≤ p.sockets.command
  | .starting | .looping | .leaving _ | .exited _ => True

structure Process.Tended (i : Invocation) (p : Process σ κ) : Prop where
  holds : socketContract.Holds p.Holding p.net.calls
  ready : p.Ready i

/-- A step of a thread calls nothing of the sockets. -/
theorem Beside.tended (hbeside : Beside p p') (hp : p.Tended i) : p'.Tended i := by
  obtain ⟨hholds, hready⟩ := hp
  constructor
  · unfold Process.Holding at hholds ⊢
    rw [hbeside.pc, hbeside.sockets, hbeside.net]
    exact hholds
  · unfold Process.Ready at hready ⊢
    rw [hbeside.pc, hbeside.sockets]
    exact hready

/-! ## The steps of `main` -/

/-- All commands but one are sent to the command port. -/
theorem what_command {id : CommandId} (hid : id ≠ .console) : what id &&& CONNECT_COMMAND ≠ 0 := by
  cases id <;> first | exact absurd rfl hid | decide

/-- `console` calls no command function, and needs no host. -/
theorem console_idle (i : Invocation) (hid : i.id = .console) :
    i.command = none ∧ i.needsHost = false := by
  unfold Invocation.command Invocation.needsHost
  rw [hid]
  exact ⟨rfl, rfl⟩

/-- `ps2link_connect` opens the sockets of the command and creates their threads. When it fails, what it
has opened stays open. -/
theorem connect_tended (now : Int) (hpc : p.pc = .starting) (hp : p.Tended i) :
    (p.connect k i now).Tended i := by
  have hstart : socketContract.Holds (· = ⟨∅, ∅⟩) p.net.calls := by
    have hholds := hp.holds
    unfold Process.Holding at hholds
    rw [hpc] at hholds
    exact hholds
  obtain ⟨c, hc, ⟨hresult, heq⟩ | ⟨hresult, heq⟩⟩ := connect_cases k i now p
  · have hopened := connect_holds hc hstart
    rw [if_neg hresult] at hopened
    rw [heq]
    exact ⟨hopened, trivial⟩
  · have hopened := connect_holds hc hstart
    rw [if_pos hresult] at hopened
    have hcases := Ps2link.connect_cases k i.hostname (what i.id) CONNECT_TIMEOUT_MS p.net
    dsimp only at hcases
    rw [← hc] at hcases
    have hasked : (what i.id &&& CONNECT_REQUEST ≠ 0 → 0 ≤ c.sockets.request) ∧
        (what i.id &&& CONNECT_COMMAND ≠ 0 → 0 ≤ c.sockets.command) := by
      rcases hcases with ⟨-, hfailed, -⟩ | ⟨-, hfailed, -⟩ | ⟨-, hfailed, -⟩ |
        ⟨hrequest, hcommand, -, -, hsockets, -⟩
      · rw [hresult] at hfailed
        cases hfailed
      · rw [hresult] at hfailed
        cases hfailed
      · rw [hresult] at hfailed
        cases hfailed
      · rw [hsockets]
        exact ⟨hrequest, hcommand⟩
    rw [heq]
    cases hneeds : i.needsHost with
    | true =>
      refine ⟨hopened, hasked.1 ?_, hasked.2 (what_command ?_)⟩
      · intro hzero
        unfold Invocation.needsHost at hneeds
        rw [hzero] at hneeds
        cases hneeds
      · intro hid
        rw [(console_idle i hid).2] at hneeds
        cases hneeds
    | false =>
      refine ⟨hopened, fun hcommand => hasked.2 (what_command ?_)⟩
      intro hid
      exact hcommand (console_idle i hid).1

/-- A command that is sent changes no socket. -/
theorem shake_sockets (now : Int) (stack : List Byte) (p : Process σ κ) :
    (p.shake e now stack).sockets = p.sockets ∧ (p.shake e now stack).net = p.net := by
  unfold Process.shake
  dsimp only
  split
  · exact ⟨rfl, rfl⟩
  · exact ⟨rfl, rfl⟩

/-- The handshake runs while the sockets for requests and commands are open. -/
theorem handshake_tended (now : Int) (stack : List Byte) (hpc : p.pc = .handshaking)
    (hp : p.Tended i) : (p.handshake e now stack).Tended i := by
  obtain ⟨hholds, hready⟩ := hp
  obtain ⟨hsockets, hnet⟩ := shake_sockets (e := e) now stack p
  unfold Process.Holding at hholds
  unfold Process.Ready at hready
  rw [hpc] at hholds hready
  have hholds' : socketContract.Holds
      ((p.shake e now stack).sockets.Has (p.shake e now stack).sockets.served)
      (p.shake e now stack).net.calls := by
    rw [hsockets, hnet]
    exact hholds
  have hready' : 0 ≤ (p.shake e now stack).sockets.request ∧
      0 ≤ (p.shake e now stack).sockets.command := by
    rw [hsockets]
    exact hready
  rcases handshake_cases (e := e) now stack p with
    ⟨result, -, -, heq⟩ | ⟨result, -, -, heq⟩ | ⟨-, heq⟩
  · rw [heq]
    exact ⟨hholds', trivial⟩
  · rw [heq]
    exact ⟨hholds', fun _ => hready'.2⟩
  · rw [heq]
    constructor
    · unfold Process.Holding
      rw [shake_pc, hpc]
      exact hholds'
    · unfold Process.Ready
      rw [shake_pc, hpc]
      exact hready'

/-- A command function is called while its socket is open. -/
theorem perform_tended (stack : List Byte) (hpc : p.pc = .performing) (hp : p.Tended i) :
    (p.perform e i stack).Tended i := by
  obtain ⟨hholds, -⟩ := hp
  unfold Process.Holding at hholds
  rw [hpc] at hholds
  rcases perform_cases e i stack p with ⟨-, heq⟩ | ⟨c, -, -, heq⟩ | ⟨c, -, -, heq⟩
  · rw [heq]
    exact ⟨hholds, trivial⟩
  · rw [heq]
    exact ⟨hholds, trivial⟩
  · rw [heq]
    exact ⟨hholds, trivial⟩

/-- At its entry, the main loop closes the socket for commands, which has no thread. -/
theorem loopStep_holds (now : Int)
    (hp : socketContract.Holds (p.sockets.Has p.sockets.served) p.net.calls) :
    socketContract.Holds
      ((loopStep k i now p).sockets.Has (loopStep k i now p).sockets.served)
      (loopStep k i now p).net.calls := by
  unfold loopStep Process.closeCommand
  split
  · exact closeCommand_holds hp
  · exact hp

/-- The main loop uses no other socket. -/
theorem mainloop_tended (now : Int) (hpc : p.pc = .looping) (hp : p.Tended i) :
    (p.mainloop k i now).Tended i := by
  have hholds := hp.holds
  unfold Process.Holding at hholds
  rw [hpc] at hholds
  have hstep := loopStep_holds (k := k) (i := i) now hholds
  rcases mainloop_cases k i now p with ⟨status, -, heq⟩ | ⟨-, heq⟩
  · rw [heq]
    exact ⟨hstep, trivial⟩
  · rw [heq]
    constructor
    · unfold Process.Holding
      rw [loopStep_pc, hpc]
      exact hstep
    · unfold Process.Ready
      rw [loopStep_pc, hpc]
      trivial

/-- `ps2link_disconnect` cancels each thread before it closes the socket of the thread. -/
theorem exit_tended {status : Int} (hpc : p.pc = .leaving status) (hp : p.Tended i) :
    (p.exit k status).Tended i := by
  have hholds := hp.holds
  unfold Process.Holding at hholds
  rw [hpc] at hholds
  refine ⟨(disconnect_holds hholds).mono ?_, trivial⟩
  rintro t rfl
  exact ⟨by rw [Process.exit, Sockets.held_initial], nofun, nofun⟩

/-- Every step of `main` keeps the contract. -/
theorem main_tended (now : Int) (stack : List Byte) (hp : p.Tended i) :
    (p.main k e i now stack).Tended i := by
  unfold Process.main
  cases hpc : p.pc with
  | starting => exact connect_tended now hpc hp
  | handshaking => exact handshake_tended now stack hpc hp
  | performing => exact perform_tended stack hpc hp
  | looping => exact mainloop_tended now hpc hp
  | leaving status => exact exit_tended hpc hp
  | exited status => exact hp

/-! ## Runs -/

/-- Every step of the process keeps it. -/
theorem ProcessStep.tended (hstep : ProcessStep h k e i p p') (hp : p.Tended i) : p'.Tended i := by
  rcases hstep.main_or_beside with ⟨now, stack, -, rfl⟩ | hbeside
  · exact main_tended now stack hp
  · exact hbeside.tended hp

variable {host : σ} {request command : Socket} {kernel : κ}

/-- In every run the sockets are tended. -/
theorem ProcessRun.tended (hrun : ProcessRun h k e i (.initial host request command kernel) p) :
    p.Tended i := by
  induction hrun with
  | refl => exact ⟨Contract.holds_nil rfl, trivial⟩
  | tail _ hstep ih => exact hstep.tended ih

/-- Once it is connected, `main` leaves by `ps2link_disconnect` only. -/
def Process.Closing (p : Process σ κ) : Prop := p.pc.Connected ∨ p.sockets = {}

/-- A program that was connected leaves only through `ps2link_disconnect`. -/
theorem main_closing (now : Int) (stack : List Byte) (hconnected : p.pc.Connected) :
    (p.main k e i now stack).Closing := by
  unfold Process.main
  cases hpc : p.pc with
  | starting =>
    rw [hpc] at hconnected
    exact hconnected.elim
  | handshaking =>
    left
    dsimp only
    rcases handshake_cases (e := e) now stack p with
      ⟨result, -, -, heq⟩ | ⟨result, -, -, heq⟩ | ⟨-, heq⟩
    · rw [heq]
      trivial
    · rw [heq]
      trivial
    · rw [heq, shake_pc]
      exact hconnected
  | performing =>
    left
    dsimp only
    rcases perform_cases e i stack p with ⟨-, heq⟩ | ⟨c, -, -, heq⟩ | ⟨c, -, -, heq⟩
    · rw [heq]
      trivial
    · rw [heq]
      trivial
    · rw [heq]
      trivial
  | looping =>
    left
    dsimp only
    rcases mainloop_cases k i now p with ⟨status, -, heq⟩ | ⟨-, heq⟩
    · rw [heq]
      trivial
    · rw [heq, loopStep_pc]
      exact hconnected
  | leaving status => exact Or.inr rfl
  | exited status =>
    rw [hpc] at hconnected
    exact hconnected.elim

theorem ProcessStep.closing (hstep : ProcessStep h k e i p p') (hp : p.Closing)
    (hstart : p.pc ≠ .starting) : p'.Closing := by
  rcases hstep.main_or_beside with ⟨now, stack, -, rfl⟩ | hbeside
  · rcases hp with hconnected | hsockets
    · exact main_closing now stack hconnected
    · by_cases hconnected : p.pc.Connected
      · exact main_closing now stack hconnected
      · right
        unfold Process.main
        cases hpc : p.pc with
        | starting => exact absurd hpc hstart
        | handshaking => exact absurd (by rw [hpc]; trivial) hconnected
        | performing => exact absurd (by rw [hpc]; trivial) hconnected
        | looping => exact absurd (by rw [hpc]; trivial) hconnected
        | leaving status => rfl
        | exited status => exact hsockets
  · unfold Process.Closing
    rw [hbeside.pc, hbeside.sockets]
    exact hp

/-- In a run from there, `main` is still connected, or the variables hold no socket. -/
theorem ProcessRun.closing (hconnected : p.pc.Connected) (hrun : ProcessRun h k e i p p') :
    p'.Closing ∧ p'.pc ≠ .starting := by
  induction hrun with
  | refl =>
    refine ⟨Or.inl hconnected, ?_⟩
    intro hpc
    rw [hpc] at hconnected
    exact hconnected
  | tail _ hstep ih => exact ⟨hstep.closing ih.1 ih.2, fun hpc => ih.2 (hstep.starting hpc).1⟩

/-- In every interleaving, `main` uses and closes only open sockets, starts threads for open sockets
only, and closes a socket only after it has cancelled its thread; it calls command functions only while
the command socket is open. When it was connected, everything is closed and cancelled when it exits. -/
theorem sockets_tended (hrun : ProcessRun h k e i (.initial host request command kernel) p) :
    p.Tended i ∧ (p.pc.Connected → ∀ (p' : Process σ κ) (status : Int), ProcessRun h k e i p p' →
      p'.pc = .exited status → socketContract.Holds (· = ⟨∅, ∅⟩) p'.net.calls) := by
  refine ⟨ProcessRun.tended hrun, ?_⟩
  intro hconnected p' status hrest hpc
  have hholds := (ProcessRun.tended (hrun.trans hrest)).holds
  unfold Process.Holding at hholds
  rw [hpc] at hholds
  obtain ⟨hrunning | hsockets, -⟩ := ProcessRun.closing hconnected hrest
  · rw [hpc] at hrunning
    exact hrunning.elim
  · rw [hsockets] at hholds
    refine hholds.mono fun t ht => ?_
    rw [ht.table, Sockets.held_initial]

/-- All sockets of `execee` are closed when it exits. -/
theorem sockets_tended_exec : (execMain execStarting).Tended execInvocation ∧
    ∃ p : Process Unit Int, p.pc = .exited 3 ∧ socketContract.Holds (· = ⟨∅, ∅⟩) p.net.calls := by
  obtain ⟨p, hrun, hpc, -⟩ := exec_exited
  obtain ⟨htended, hclosed⟩ := sockets_tended (exec_main (p := execStarting) rfl)
  exact ⟨htended, p, hpc, hclosed trivial p 3 hrun hpc⟩

end Main

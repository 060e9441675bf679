import Ps2Client.Main.Process
import Ps2Client.Network.Proofs.LifecycleProofs
import Ps2Client.Ps2link.Proofs.CommandsProofs
import Ps2Client.Ps2link.Proofs.MainloopProofs
import Ps2Client.Ps2link.Proofs.ResponsiveProofs
import Ps2Client.Ps2link.Proofs.SharedProofs

/-!
# Proofs: the process

What the process does, without the sockets and the commands, are runs of the handshake and of the main
loop, each with the threads beside it. What is known of these is known of the process.
-/

namespace Main

open CMemory Network Ps2link

variable {σ κ : Type} {h : Host σ} {k : Kernel κ} {e : Endian} {i : Invocation}
variable {p p' : Process σ κ}

/-! ## What the steps of `main` do to the handshake and to the main loop -/

/-- What `main` does to the handshake is a step of the handshake. -/
theorem shake_meeting (now : Int) (stack : List Byte) (p : Process σ κ) :
    (p.shake e now stack).meeting = handshakeStep HANDSHAKE_TIMEOUT_MS now p.meeting := by
  unfold Process.shake
  dsimp only
  split <;> rfl

theorem shake_pc (now : Int) (stack : List Byte) (p : Process σ κ) :
    (p.shake e now stack).pc = p.pc := by
  unfold Process.shake
  dsimp only
  split <;> rfl

theorem system_meeting (p : Process σ κ) {m : Meeting σ} (hm : m.client = p.meeting.client) :
    Process.system { p with meeting := m } = p.system := by
  unfold Process.system
  dsimp only
  rw [hm]

/-- It changes nothing that the main loop shares. -/
theorem shake_system (now : Int) (stack : List Byte) (p : Process σ κ) :
    (p.shake e now stack).system = p.system := by
  have hclient := handshakeStep_client HANDSHAKE_TIMEOUT_MS now p.meeting
  unfold Process.shake
  dsimp only
  split
  · exact system_meeting p hclient
  · exact system_meeting (p.send e pingCommand stack) hclient

/-- What `main` does after a step of the handshake. -/
theorem handshake_cases (now : Int) (stack : List Byte) (p : Process σ κ) :
    (∃ result, (p.shake e now stack).meeting.pc = .done result ∧ result < 0 ∧
      p.handshake e now stack = ((p.shake e now stack).print
        "Error: ps2link at %s accepted the connection but does not answer.\n").leave
          EXIT_NOCONNECT) ∨
    (∃ result, (p.shake e now stack).meeting.pc = .done result ∧ 0 ≤ result ∧
      p.handshake e now stack = { p.shake e now stack with pc := .performing }) ∨
    (∀ result, (p.shake e now stack).meeting.pc ≠ .done result) ∧
      p.handshake e now stack = p.shake e now stack := by
  unfold Process.handshake
  dsimp only
  split
  · rename_i result hpc
    by_cases hresult : result < 0
    · exact Or.inl ⟨result, hpc, hresult, if_pos hresult⟩
    · exact Or.inr (Or.inl ⟨result, hpc, Int.not_lt.mp hresult, if_neg hresult⟩)
  · rename_i hpc
    exact Or.inr (Or.inr ⟨hpc, rfl⟩)

/-- A step of `main` in the handshake is a step of the handshake. -/
theorem handshake_meeting (now : Int) (stack : List Byte) (p : Process σ κ) :
    (p.handshake e now stack).meeting = handshakeStep HANDSHAKE_TIMEOUT_MS now p.meeting := by
  rw [← shake_meeting (e := e) now stack p]
  rcases handshake_cases (e := e) now stack p with
    ⟨result, -, -, heq⟩ | ⟨result, -, -, heq⟩ | ⟨-, heq⟩
  · rw [heq]
    rfl
  · rw [heq]
  · rw [heq]

/-- It leaves the main loop alone. -/
theorem handshake_system (now : Int) (stack : List Byte) (p : Process σ κ) :
    (p.handshake e now stack).system = p.system := by
  rw [← shake_system (e := e) now stack p]
  rcases handshake_cases (e := e) now stack p with
    ⟨result, -, -, heq⟩ | ⟨result, -, -, heq⟩ | ⟨-, heq⟩
  · rw [heq]
    rfl
  · rw [heq]
    rfl
  · rw [heq]

/-- What `main` does for the command. -/
theorem perform_cases (e : Endian) (i : Invocation) (stack : List Byte)
    (p : Process σ κ) :
    (i.command = none ∧ p.perform e i stack = { p with pc := .looping }) ∨
    (∃ c, i.command = some c ∧ (c.call e stack p.command).1 < 0 ∧
      p.perform e i stack =
        ((p.send e c stack).print "Error: Could not send the command.\n").leave EXIT_NOCONNECT) ∨
    ∃ c, i.command = some c ∧ 0 ≤ (c.call e stack p.command).1 ∧
      p.perform e i stack = { p.send e c stack with pc := .looping } := by
  unfold Process.perform
  split
  · rename_i hcommand
    exact Or.inl ⟨hcommand, rfl⟩
  · rename_i c hcommand
    by_cases hresult : (c.call e stack p.command).1 < 0
    · exact Or.inr (Or.inl ⟨c, hcommand, hresult, if_pos hresult⟩)
    · exact Or.inr (Or.inr ⟨c, hcommand, Int.not_lt.mp hresult, if_neg hresult⟩)

/-- A command function leaves the handshake alone, -/
theorem perform_meeting (stack : List Byte) (p : Process σ κ) :
    (p.perform e i stack).meeting = p.meeting := by
  rcases perform_cases e i stack p with ⟨-, heq⟩ | ⟨c, -, -, heq⟩ | ⟨c, -, -, heq⟩
  · rw [heq]
  · rw [heq]
    rfl
  · rw [heq]
    rfl

/-- and the main loop. -/
theorem perform_system (stack : List Byte) (p : Process σ κ) :
    (p.perform e i stack).system = p.system := by
  rcases perform_cases e i stack p with ⟨-, heq⟩ | ⟨c, -, -, heq⟩ | ⟨c, -, -, heq⟩
  · rw [heq]
    rfl
  · rw [heq]
    rfl
  · rw [heq]
    rfl

/-- The main loop itself changes only what is its own. -/
theorem mainStep_frame (marker : Option (List Byte)) (timeout now : Int) (s : System) :
    mainStep marker timeout now s = { s with
      console := (mainStep marker timeout now s).console
      activity := (mainStep marker timeout now s).activity
      mainPc := (mainStep marker timeout now s).mainPc } := by
  unfold mainStep
  split
  · split <;> rfl
  · split <;> rfl
  · split
    · rfl
    · split <;> rfl
  · rfl
  · rfl
  · rfl

/-- At the top of the loop, a marker that was seen ends it with its status. -/
theorem mainStep_seen {marker : Option (List Byte)} {timeout now : Int} {s : System}
    (hpc : s.mainPc = .top) (hseen : s.console.seen = true) :
    (mainStep marker timeout now s).mainPc = .done (exitStatus s.console.status) := by
  unfold mainStep
  rw [hpc]
  dsimp only
  rw [if_pos hseen]

/-- The process with what a step of the main loop has changed. -/
def loopStep (k : Kernel κ) (i : Invocation) (now : Int) (p : Process σ κ) : Process σ κ :=
  { (p.closeCommand k).setActivity (mainStep i.marker i.wait now p.system).activity with
    console := (mainStep i.marker i.wait now p.system).console
    loop := (mainStep i.marker i.wait now p.system).mainPc }

theorem loopStep_pc (now : Int) (p : Process σ κ) : (loopStep k i now p).pc = p.pc := by
  unfold loopStep Process.closeCommand
  split <;> rfl

/-- What `main` does to the main loop is a step of the main loop. -/
theorem loopStep_system (now : Int) (p : Process σ κ) :
    (loopStep k i now p).system = mainStep i.marker i.wait now p.system := by
  rw [mainStep_frame]
  unfold loopStep Process.closeCommand
  split <;> rfl

/-- What `main` does after a step of the main loop. -/
theorem mainloop_cases (k : Kernel κ) (i : Invocation) (now : Int) (p : Process σ κ) :
    (∃ status, (mainStep i.marker i.wait now p.system).mainPc = .done status ∧
      p.mainloop k i now = { loopStep k i now p with
        messages := (loopStep k i now p).messages ++ loopMessage p.loop status }.leave status) ∨
    ¬ (mainStep i.marker i.wait now p.system).mainPc.Done ∧
      p.mainloop k i now = loopStep k i now p := by
  unfold Process.mainloop
  dsimp only
  split
  · rename_i status hpc
    exact Or.inl ⟨status, hpc, rfl⟩
  · rename_i hpc
    refine Or.inr ⟨?_, rfl⟩
    rintro ⟨status, hdone⟩
    exact hpc status hdone

theorem mainloop_system (now : Int) (p : Process σ κ) :
    (p.mainloop k i now).system = mainStep i.marker i.wait now p.system := by
  rw [← loopStep_system (k := k)]
  rcases mainloop_cases k i now p with ⟨status, -, heq⟩ | ⟨-, heq⟩
  · rw [heq]
    rfl
  · rw [heq]

/-- What `main` does after `ps2link_connect`. -/
theorem connect_cases (k : Kernel κ) (i : Invocation) (now : Int) (p : Process σ κ) :
    ∃ c, c = Ps2link.connect k i.hostname (what i.id) CONNECT_TIMEOUT_MS p.net ∧
      (c.result ≠ 0 ∧ p.connect k i now = { p with
          net := c.net, sockets := c.sockets, messages := p.messages ++ c.message.toList
          pc := .exited c.result } ∨
        c.result = 0 ∧ p.connect k i now =
          { { p with
              net := c.net, sockets := c.sockets
              messages := p.messages ++ c.message.toList }.setActivity now with
            pc := if i.needsHost then .handshaking else .performing
            consoleThread := 0 ≤ c.sockets.console
            requestThread := 0 ≤ c.sockets.request }) := by
  refine ⟨_, rfl, ?_⟩
  by_cases hresult : (Ps2link.connect k i.hostname (what i.id) CONNECT_TIMEOUT_MS p.net).result ≠ 0
  · exact Or.inl ⟨hresult, if_pos hresult⟩
  · exact Or.inr ⟨not_not.mp hresult, if_neg hresult⟩

/-! ## The handshake and the main loop within the process -/

/-- Recording activity is nothing to the handshake. -/
theorem setActivity_meeting (timeoutMs now : Int) (p : Process σ κ) :
    HandshakeStep h e timeoutMs p.meeting (p.setActivity now).meeting :=
  .between p.meeting.client.host.1 p.meeting.client.sock now p.meeting.client.lost p.meeting

/-- What the process does to the handshake is a step of it, or nothing. -/
theorem ProcessStep.meeting (hstep : ProcessStep h k e i p p') :
    p'.meeting = p.meeting ∨ HandshakeStep h e HANDSHAKE_TIMEOUT_MS p.meeting p'.meeting := by
  cases hstep with
  | main now stack _ hlive =>
    unfold Process.main
    cases hpc : p.pc with
    | starting =>
      dsimp only
      obtain ⟨c, -, ⟨-, heq⟩ | ⟨-, heq⟩⟩ := connect_cases k i now p
      · left
        rw [heq]
      · right
        rw [heq]
        exact setActivity_meeting HANDSHAKE_TIMEOUT_MS now p
    | handshaking =>
      right
      dsimp only
      rw [handshake_meeting]
      exact .handshake now p.meeting hlive
    | performing => exact Or.inl (perform_meeting stack p)
    | looping =>
      right
      have hloop : HandshakeStep h e HANDSHAKE_TIMEOUT_MS p.meeting (loopStep k i now p).meeting := by
        unfold loopStep Process.closeCommand
        split
        all_goals exact setActivity_meeting HANDSHAKE_TIMEOUT_MS _ p
      dsimp only
      rcases mainloop_cases k i now p with ⟨status, -, heq⟩ | ⟨-, heq⟩
      all_goals
        rw [heq]
        exact hloop
    | leaving status => exact Or.inl rfl
    | exited status => exact Or.inl rfl
  | receive datagram _ hruns hphase => exact Or.inl rfl
  | print packet _ hruns hphase => exact Or.inl rfl
  | scan packet _ hruns hphase => exact Or.inl rfl
  | consoleActivity now _ hruns hphase => exact Or.inr (setActivity_meeting HANDSHAKE_TIMEOUT_MS now p)
  | serve sock kind packet _ hruns hkind hforeign =>
    exact Or.inr (.serve sock kind packet p.meeting hruns.1 hkind)
  | requestActivity now _ hruns => exact Or.inr (setActivity_meeting HANDSHAKE_TIMEOUT_MS now p)
  | lost _ hruns =>
    exact Or.inr (.between p.meeting.client.host.1 p.meeting.client.sock p.meeting.client.activity true
      p.meeting)
  | world host sock _ hstarted =>
    exact Or.inr (.between host sock p.meeting.client.activity p.meeting.client.lost p.meeting)

/-- A request changes nothing that the main loop reads. -/
theorem serve_system (sock : Socket) {kind : Kind} {packet : List Byte}
    (hkind : net32 packet 0 = kind.request) (p : Process σ κ) :
    Process.system { p with meeting := p.meeting.serve h e sock kind packet } = p.system := by
  obtain ⟨hactivity, hlost⟩ := Prod.mk.inj (serve_shared h e sock p.meeting hkind)
  unfold Process.system
  dsimp only
  rw [hactivity, hlost]

/-- What the process does to the main loop and what it shares is a step of the main loop or of the
threads, or nothing; at the start it sets the time of the last activity. -/
theorem ProcessStep.system (hstep : ProcessStep h k e i p p') :
    p'.system = p.system ∨ Step i.marker i.wait p.system p'.system ∨
      p.pc = .starting ∧ ∃ now, p'.system = { p.system with activity := now } := by
  cases hstep with
  | main now stack _ hlive =>
    unfold Process.main
    cases hpc : p.pc with
    | starting =>
      dsimp only
      obtain ⟨c, -, ⟨-, heq⟩ | ⟨-, heq⟩⟩ := connect_cases k i now p
      · left
        rw [heq]
        rfl
      · refine Or.inr (Or.inr ⟨rfl, now, ?_⟩)
        rw [heq]
        rfl
    | handshaking => exact Or.inl (handshake_system now stack p)
    | performing => exact Or.inl (perform_system stack p)
    | looping =>
      right
      left
      dsimp only
      rw [mainloop_system]
      exact .main now p.system
    | leaving status => exact Or.inl rfl
    | exited status => exact Or.inl rfl
  | receive datagram _ hruns hphase =>
    left
    unfold Process.system
    rw [hphase]
    rfl
  | print packet _ hruns hphase =>
    left
    unfold Process.system
    rw [hphase]
    rfl
  | scan packet _ hruns hphase =>
    exact Or.inr (Or.inl (.scan packet p.system (congrArg ConsolePhase.pc hphase)))
  | consoleActivity now _ hruns hphase =>
    exact Or.inr (Or.inl (.consoleActivity now p.system (congrArg ConsolePhase.pc hphase)))
  | serve sock kind packet _ hruns hkind hforeign => exact Or.inl (serve_system sock hkind p)
  | requestActivity now _ hruns => exact Or.inr (Or.inl (.requestActivity now p.system hruns.2.2.2))
  | lost _ hruns => exact Or.inr (Or.inl (.lost p.system hruns.2.2.2))
  | world host sock _ hstarted => exact Or.inl rfl

/-! ## Runs -/

/-- `main` connects once. -/
theorem main_pc_ne_starting (now : Int) (stack : List Byte) (p : Process σ κ) :
    (p.main k e i now stack).pc ≠ .starting := by
  unfold Process.main
  cases hpc : p.pc with
  | starting =>
    dsimp only
    obtain ⟨c, -, ⟨-, heq⟩ | ⟨-, heq⟩⟩ := connect_cases k i now p
    · rw [heq]
      exact nofun
    · rw [heq]
      dsimp only
      split <;> exact nofun
  | handshaking =>
    dsimp only
    rcases handshake_cases (e := e) now stack p with
      ⟨result, -, -, heq⟩ | ⟨result, -, -, heq⟩ | ⟨-, heq⟩
    · rw [heq]
      exact nofun
    · rw [heq]
      exact nofun
    · rw [heq, shake_pc, hpc]
      exact nofun
  | performing =>
    dsimp only
    rcases perform_cases e i stack p with ⟨-, heq⟩ | ⟨c, -, -, heq⟩ | ⟨c, -, -, heq⟩
    all_goals
      rw [heq]
      exact nofun
  | looping =>
    dsimp only
    rcases mainloop_cases k i now p with ⟨status, -, heq⟩ | ⟨-, heq⟩
    · rw [heq]
      exact nofun
    · rw [heq, loopStep_pc, hpc]
      exact nofun
  | leaving status => exact nofun
  | exited status =>
    dsimp only
    rw [hpc]
    exact nofun

/-- Before `ps2link_connect` there is only the world. -/
theorem ProcessStep.starting (hstep : ProcessStep h k e i p p') (hpc : p'.pc = .starting) :
    p.pc = .starting ∧ p'.system = p.system := by
  cases hstep with
  | main now stack _ hlive => exact absurd hpc (main_pc_ne_starting now stack p)
  | receive datagram _ hruns hphase => exact absurd hpc hruns.2.1
  | print packet _ hruns hphase => exact absurd hpc hruns.2.1
  | scan packet _ hruns hphase => exact absurd hpc hruns.2.1
  | consoleActivity now _ hruns hphase => exact absurd hpc hruns.2.1
  | serve sock kind packet _ hruns hkind hforeign => exact absurd hpc hruns.2.1
  | requestActivity now _ hruns => exact absurd hpc hruns.2.1
  | lost _ hruns => exact absurd hpc hruns.2.1
  | world host sock _ hstarted => exact absurd hpc hstarted

/-- The run of the main loop within a run of the process begins when the process is connected. -/
def Process.Loops (i : Invocation) (p : Process σ κ) : Prop :=
  (∃ activity, Run i.marker i.wait (.initial activity) p.system) ∧
    (p.pc = .starting → ∃ activity, p.system = .initial activity)

/-- Every step of the process is one of the main loop with its threads, or none. -/
theorem ProcessStep.loops (hstep : ProcessStep h k e i p p') (hp : p.Loops i) : p'.Loops i := by
  obtain ⟨⟨activity, hrun⟩, hstart⟩ := hp
  constructor
  · rcases hstep.system with heq | hnext | ⟨hpc, now, heq⟩
    · exact ⟨activity, heq ▸ hrun⟩
    · exact ⟨activity, hrun.tail hnext⟩
    · obtain ⟨before, hinitial⟩ := hstart hpc
      rw [hinitial] at heq
      exact ⟨now, heq ▸ .refl⟩
  · intro hpc
    obtain ⟨hbefore, heq⟩ := hstep.starting hpc
    rw [heq]
    exact hstart hbefore

variable {host : σ} {request command : Socket} {kernel : κ}

/-- The process runs the main loop with its threads, -/
theorem ProcessRun.loops (hrun : ProcessRun h k e i (.initial host request command kernel) p) :
    p.Loops i := by
  induction hrun with
  | refl => exact ⟨⟨0, .refl⟩, fun _ => ⟨0, rfl⟩⟩
  | tail _ hstep ih => exact hstep.loops ih

/-- and the handshake with the request thread. -/
theorem ProcessRun.handshakes
    (hrun : ProcessRun h k e i (.initial host request command kernel) p) :
    HandshakeRun h e HANDSHAKE_TIMEOUT_MS (.initial host request) p.meeting := by
  induction hrun with
  | refl => exact .refl
  | tail _ hstep ih =>
    rcases hstep.meeting with heq | hnext
    · rw [heq]
      exact ih
    · exact ih.tail hnext

/-- The process refines the models of the handshake and of the main loop: in every run, what it does to
each, with the threads beside it, is a run of that model from its initial state. -/
theorem process_refines (hrun : ProcessRun h k e i (.initial host request command kernel) p) :
    HandshakeRun h e HANDSHAKE_TIMEOUT_MS (.initial host request) p.meeting ∧
      ∃ activity, Run i.marker i.wait (.initial activity) p.system :=
  ⟨ProcessRun.handshakes hrun, (ProcessRun.loops hrun).1⟩

/-! ## A program is executed -/

/-- `-e M execee a` -/
def execInvocation : Invocation where
  hostname := []
  timeout := -1
  marker := some [ascii 'M']
  id := .execee
  argv := [⟨[ascii 'a'], by decide⟩]
  number0 := 0
  number1 := 0
  handled := ⟨nofun, nofun⟩

def execCommand : Command := .execee 1 [⟨[ascii 'a'], by decide⟩]

abbrev execRun : Process Unit Int → Process Unit Int → Prop :=
  ProcessRun pingHost countingKernel .little execInvocation

def execMain (p : Process Unit Int) : Process Unit Int :=
  p.main countingKernel .little execInvocation 0 []

/-- The sockets are 10, 11 and 12. -/
def execStarting : Process Unit Int := .initial () (.receiving []) (.receiving []) 7

/-- The command of the handshake has been sent. -/
def execPinged : Process Unit Int :=
  execMain (execMain (execMain (execMain (execMain execStarting))))

/-- It has been answered. -/
def execServed : Process Unit Int :=
  { execPinged with meeting := pingClosed (pingOpened execPinged.meeting) }

def execAnswered : Process Unit Int :=
  { execServed with meeting := { execServed.meeting with pc := .done 0 }, pc := .performing }

theorem exec_main {p : Process Unit Int} (hlive : p.Live) : execRun p (execMain p) :=
  .single (.main 0 [] p hlive)

/-- The handshake sends its command. -/
theorem exec_pinged : execRun (execMain execStarting) execPinged := by
  refine (exec_main ?_).trans ((exec_main ?_).trans ((exec_main ?_).trans (exec_main ?_)))
  all_goals rfl

/-- The ps2 opens the file of the handshake and closes it. -/
theorem exec_served : execRun execPinged execServed := by
  have hstarted : execPinged.pc ≠ .starting := by decide
  have hruns : execPinged.RequestRuns := ⟨rfl, hstarted, rfl, rfl⟩
  have hopen : ProcessStep pingHost countingKernel .little execInvocation execPinged
      { execPinged with meeting := pingOpened execPinged.meeting } := by
    refine .serve (.receiving []) .open _ execPinged hruns (net32_inBuffer_number ..) ?_
    intro fd hfd
    cases hfd
  refine (Relation.ReflTransGen.single hopen).tail ?_
  refine .serve (.receiving []) .close _ { execPinged with meeting := pingOpened execPinged.meeting }
    ⟨(pingOpened_client _).2, hstarted, rfl, rfl⟩ (net32_inBuffer_number ..) ?_
  intro fd hfd
  have hdescriptor := congrArg Operation.descriptor (decode_fields .little (.close 3)
    (Fields.close 3).kind.request [])
  obtain rfl := Option.some.inj (hdescriptor.symm.trans hfd)
  rintro ⟨-, hown | hown | hown | hown⟩
  all_goals exact absurd hown (by decide)

theorem execServed_live : execServed.Live := (pingClosed_client execPinged.meeting).2

/-- `main` finds the ping answered. -/
theorem exec_answered : execRun execServed execAnswered := by
  have hanswered : execServed.meeting.client.pingAnswered = true :=
    (pingClosed_client execPinged.meeting).1
  let q : Process Unit Int :=
    { execServed with meeting := { execServed.meeting with pc := .answered 0 } }
  have hseen : execMain execServed = q := by
    have hstep : handshakeStep HANDSHAKE_TIMEOUT_MS 0 execServed.meeting = q.meeting :=
      if_pos hanswered
    have hshake : execServed.shake .little 0 [] = q := by
      unfold Process.shake
      rw [hstep]
      exact if_pos rfl
    show execServed.handshake .little 0 [] = q
    unfold Process.handshake
    rw [hshake]
  have hdone : execMain q = execAnswered := by
    rfl
  rw [← hdone]
  refine Relation.ReflTransGen.trans ?_ (exec_main execServed_live)
  rw [← hseen]
  exact exec_main execServed_live

/-- The command has been sent, and the main loop waits. -/
def execLooping : Process Unit Int :=
  execMain { execAnswered.send .little execCommand [] with pc := .looping }

/-- `main` sends `execee`, and enters the main loop. -/
theorem exec_performed : execRun execAnswered execLooping := by
  have hlive : execAnswered.Live := execServed_live
  have hpinged : execAnswered.command.Writable :=
    (pingCommand.call_succeeds .little [] (s := .receiving []) List.not_mem_nil rfl).2
  have hsent : execMain execAnswered =
      { execAnswered.send .little execCommand [] with pc := .looping } :=
    if_neg (Int.not_lt.mpr (execCommand.call_succeeds .little [] hpinged (by decide)).1)
  unfold execLooping
  rw [← hsent]
  refine (exec_main hlive).trans (exec_main ?_)
  rw [hsent]
  exact hlive

/-- A packet of console output has been received, printed and scanned. -/
def execPrinted (packet : List Byte) : Process Unit Int :=
  { execLooping with
    consolePhase := .scanned
    received := [packet]
    stdout := packet
    console := scanConsole (some [ascii 'M']) packet .initial
    packets := [packet] }

/-- The console thread receives a packet, prints it and scans it. -/
theorem exec_printed {packet : List Byte} (hsize : packet.length ≤ 65536) :
    execRun execLooping (execPrinted packet) := by
  have hruns : execLooping.ConsoleRuns := ⟨execServed_live, nofun, rfl⟩
  let p₁ : Process Unit Int :=
    { execLooping with consolePhase := .received packet, received := [packet] }
  let p₂ : Process Unit Int := { p₁ with consolePhase := .printed packet, stdout := packet }
  have hreceive : ProcessStep pingHost countingKernel .little execInvocation execLooping p₁ := by
    have hstep := ProcessStep.receive (h := pingHost) (k := countingKernel) (e := .little)
      (i := execInvocation) packet execLooping hruns rfl
    rw [List.take_of_length_le hsize] at hstep
    exact hstep
  have hprint : ProcessStep pingHost countingKernel .little execInvocation p₁ p₂ :=
    .print packet p₁ hruns rfl
  exact ((Relation.ReflTransGen.single hreceive).tail hprint).tail (.scan packet p₂ hruns rfl)

/-- `M status=3` -/
def execPacket : List Byte := ['M', ' ', 's', 't', 'a', 't', 'u', 's', '=', '3', '\n'].map ascii

/-- The process connects, is answered, sends the command and exits with the status of the line that
comes back. -/
theorem exec_exited : ∃ p, execRun (execMain execStarting) p ∧ p.pc = .exited 3 ∧
    p.stdout = execPacket := by
  have hrecord : (scanConsole (some [ascii 'M']) execPacket .initial).record = some 3 := by
    have hlines : firstStatus (some [ascii 'M']) (consoleLines [execPacket].flatten) = some 3 := by
      decide
    rw [← hlines]
    exact @scanPackets_record (some [ascii 'M']) [execPacket]
  obtain ⟨hseen, hstatus⟩ := Console.record_eq_some hrecord
  have hdone : (mainStep execInvocation.marker execInvocation.wait 0
      (execPrinted execPacket).system).mainPc = .done 3 := by
    have hexit : exitStatus (execPrinted execPacket).console.status = 3 := by
      rw [show (execPrinted execPacket).console.status = 3 from hstatus]
      decide
    rw [← hexit]
    exact mainStep_seen rfl hseen
  rcases mainloop_cases countingKernel execInvocation 0 (execPrinted execPacket) with
    ⟨status, hreturned, heq⟩ | ⟨hnot, -⟩
  · obtain rfl := MainPc.done.inj (hdone.symm.trans hreturned)
    have hmain : execMain (execPrinted execPacket) = _ := heq
    refine ⟨execMain (execMain (execPrinted execPacket)), ?_, ?_, ?_⟩
    · have hprinted : execRun execLooping (execPrinted execPacket) := exec_printed (by decide)
      refine exec_pinged.trans (exec_served.trans (exec_answered.trans (exec_performed.trans ?_)))
      refine hprinted.trans (.trans (exec_main (p := execPrinted execPacket) execServed_live) ?_)
      refine exec_main ?_
      rw [hmain]
      exact execServed_live
    · rw [hmain]
      rfl
    · rw [hmain]
      rfl
  · exact absurd ⟨3, hdone⟩ hnot

/-- `execee` is sent after the handshake, the marker comes with the status 3, and the client exits. -/
theorem process_refines_exec : ∃ p : Process Unit Int, p.pc = .exited 3 ∧
    HandshakeRun pingHost .little HANDSHAKE_TIMEOUT_MS (.initial () (.receiving [])) p.meeting ∧
    ∃ activity, Run execInvocation.marker execInvocation.wait (.initial activity) p.system := by
  obtain ⟨p, hrun, hpc, -⟩ := exec_exited
  exact ⟨p, hpc, process_refines ((exec_main (p := execStarting) rfl).trans hrun)⟩

end Main

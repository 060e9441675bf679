import Mathlib.Data.List.Forall2
import Ps2Client.Main.Proofs.ExitProofs
import Ps2Client.Network.Proofs.StreamsProofs
import Ps2Client.Ps2link.Proofs.CommandsProofs

/-!
# Proofs: what goes out on the command socket

One call of a command function first, then the steps of the process, which make one call or none.
-/

namespace Main

open CMemory Network Ps2link

variable {σ κ : Type} {h : Host σ} {k : Kernel κ} {e : Endian} {i : Invocation}
variable {p p' : Process σ κ}

/-! ## One call -/

theorem packet_ne_nil (c : Command) (stack : List Byte) : c.packet e stack ≠ [] := by
  intro hnil
  have hlength := congrArg List.length hnil
  rw [Command.packet_length] at hlength
  simp at hlength

/-- A call puts its packet on the socket, or less than that if it fails. -/
theorem call_emits (e : Endian) (c : Command) (stack : List Byte) (s : Socket) :
    ∃ bytes, CommandCall.Emits e ⟨c, stack, (c.call e stack s).1⟩ bytes ∧
      (c.call e stack s).2.sent = s.sent ++ bytes := by
  cases hrefused : c.refused stack with
  | true =>
    rw [Command.call_refused _ _ _ _ hrefused]
    refine ⟨[], Or.inr ⟨rfl, List.nil_prefix, ?_⟩, (List.append_nil _).symm⟩
    exact (packet_ne_nil c stack).symm
  | false =>
    have hwhole : c.call e stack s = sendWhole s (c.packet e stack) := by
      rw [Command.call_eq _ _ _ _ hrefused, sendWhole, Command.packet_length]
      rfl
    rw [hwhole]
    rcases sendWhole_cases s (c.packet e stack) with ⟨hresult, hsent⟩ | ⟨hresult, n, hn, hsent⟩
    · exact ⟨_, Or.inl ⟨hresult, rfl⟩, hsent⟩
    · refine ⟨_, Or.inr ⟨hresult, List.take_prefix n _, ?_⟩, hsent⟩
      intro hall
      have hlength := congrArg List.length hall
      rw [List.length_take] at hlength
      dsimp only at hn hlength
      omega

/-! ## The steps of the process -/

/-- What has been called, and what has gone out, stays or is that of one more call. -/
def Process.Sends (e : Endian) (p p' : Process σ κ) : Prop :=
  p'.calls = p.calls ∧ p'.command = p.command ∨
    ∃ c stack, p'.calls = (p.send e c stack).calls ∧ p'.command = (p.send e c stack).command

theorem shake_sends (now : Int) (stack : List Byte) (p : Process σ κ) :
    p.Sends e (p.shake e now stack) := by
  unfold Process.shake
  dsimp only
  split
  · exact Or.inl ⟨rfl, rfl⟩
  · exact Or.inr ⟨pingCommand, stack, rfl, rfl⟩

theorem main_sends (now : Int) (stack : List Byte) (p : Process σ κ) :
    p.Sends e (p.main k e i now stack) := by
  unfold Process.main
  cases hpc : p.pc with
  | starting =>
    left
    dsimp only
    obtain ⟨c, -, ⟨-, heq⟩ | ⟨-, heq⟩⟩ := connect_cases k i now p
    · rw [heq]
      exact ⟨rfl, rfl⟩
    · rw [heq]
      exact ⟨rfl, rfl⟩
  | handshaking =>
    have hshake := shake_sends (e := e) now stack p
    dsimp only
    rcases handshake_cases (e := e) now stack p with
      ⟨result, -, -, heq⟩ | ⟨result, -, -, heq⟩ | ⟨-, heq⟩
    · rw [heq]
      exact hshake
    · rw [heq]
      exact hshake
    · rw [heq]
      exact hshake
  | performing =>
    dsimp only
    rcases perform_cases e i stack p with ⟨-, heq⟩ | ⟨c, -, -, heq⟩ | ⟨c, -, -, heq⟩
    · rw [heq]
      exact Or.inl ⟨rfl, rfl⟩
    · rw [heq]
      exact Or.inr ⟨c, stack, rfl, rfl⟩
    · rw [heq]
      exact Or.inr ⟨c, stack, rfl, rfl⟩
  | looping =>
    have hloop : p.Sends e (loopStep k i now p) := by
      left
      unfold loopStep Process.closeCommand
      split
      · exact ⟨rfl, rfl⟩
      · exact ⟨rfl, rfl⟩
    dsimp only
    rcases mainloop_cases k i now p with ⟨status, -, heq⟩ | ⟨-, heq⟩
    · rw [heq]
      exact hloop
    · rw [heq]
      exact hloop
  | leaving status => exact Or.inl ⟨rfl, rfl⟩
  | exited status => exact Or.inl ⟨rfl, rfl⟩

theorem Process.Sends.sent {before : List Byte} (hsends : p.Sends e p') (hp : p.Sent e before) :
    p'.Sent e before := by
  obtain ⟨pieces, hpieces, hsent⟩ := hp
  rcases hsends with ⟨hcalls, hcommand⟩ | ⟨c, stack, hcalls, hcommand⟩
  · refine ⟨pieces, ?_, ?_⟩
    · rw [hcalls]
      exact hpieces
    · rw [hcommand]
      exact hsent
  · obtain ⟨bytes, hemits, hcall⟩ := call_emits e c stack p.command
    refine ⟨pieces ++ [bytes], ?_, ?_⟩
    · rw [hcalls]
      exact List.rel_append hpieces (.cons hemits .nil)
    · rw [hcommand, List.flatten_append, List.flatten_singleton, ← List.append_assoc, ← hsent]
      exact hcall

theorem ProcessStep.sent {before : List Byte} (hstep : ProcessStep h k e i p p')
    (hp : p.Sent e before) : p'.Sent e before := by
  rcases hstep.main_or_beside with ⟨now, stack, -, rfl⟩ | hbeside
  · exact (main_sends now stack p).sent hp
  · exact Process.Sends.sent (Or.inl ⟨hbeside.calls, hbeside.command⟩) hp

/-! ## Runs -/

/-- Wherever `main` is, it has called the function of its command at most once, and only when the
handshake was answered. -/
theorem Process.Progress.own (hp : p.Progress i) :
    ∃ own, p.Called i own ∧ (own = [] ∨ i.Calls (fun _ => True) own ∧ p.Answered i) := by
  have hcalls : ∀ {P : Int → Prop} {own : List CommandCall}, i.Calls P own →
      i.Calls (fun _ => True) own := by
    intro P own hown
    unfold Invocation.Calls at hown ⊢
    cases hcommand : i.command with
    | none =>
      rw [hcommand] at hown
      exact hown
    | some c =>
      rw [hcommand] at hown
      obtain ⟨stack, result, hown, -⟩ := hown
      exact ⟨stack, result, hown, trivial⟩
  have hexit : ∀ {status : Int}, ExitReason i p status →
      ∃ own, p.Called i own ∧ (own = [] ∨ i.Calls (fun _ => True) own ∧ p.Answered i) := by
    intro status hreason
    cases hreason with
    | unconnected status message hstatus hnone hmessages => exact ⟨[], ⟨[], hnone, nofun⟩, Or.inl rfl⟩
    | unanswered hneeds hcalled hresult hmessages => exact ⟨[], hcalled, Or.inl rfl⟩
    | unsent own hcalled hown hcommand hanswered hmessages =>
      exact ⟨own, hcalled, Or.inr ⟨hcalls hown, hanswered⟩⟩
    | returned status own packets hcalled hown hanswered hpackets hreason =>
      exact ⟨own, hcalled, Or.inr ⟨hcalls hown, hanswered⟩⟩
  unfold Process.Progress at hp
  cases hpc : p.pc with
  | starting =>
    rw [hpc] at hp
    exact ⟨[], ⟨[], hp.1, nofun⟩, Or.inl rfl⟩
  | handshaking =>
    rw [hpc] at hp
    exact ⟨[], hp.2.1, Or.inl rfl⟩
  | performing =>
    rw [hpc] at hp
    exact ⟨[], hp.1, Or.inl rfl⟩
  | looping =>
    rw [hpc] at hp
    obtain ⟨⟨own, hcalled, hown⟩, hanswered, -⟩ := hp
    exact ⟨own, hcalled, Or.inr ⟨hcalls hown, hanswered⟩⟩
  | leaving status =>
    rw [hpc] at hp
    exact hexit hp
  | exited status =>
    rw [hpc] at hp
    exact hexit hp

variable {host : σ} {request command : Socket} {kernel : κ}

theorem ProcessRun.sent (hrun : ProcessRun h k e i (.initial host request command kernel) p) :
    p.Sent e command.sent := by
  induction hrun with
  | refl => exact ⟨[], .nil, (List.append_nil _).symm⟩
  | tail _ hstep ih => exact hstep.sent ih

/-- In every interleaving, what goes out on the command socket are the packets of the handshake, if the
command needs the host, and behind them at most one packet of the command, after an answer to the
handshake. Of a call that fails, less than its packet has gone out. -/
theorem commands_sent (hrun : ProcessRun h k e i (.initial host request command kernel) p) :
    p.Sent e command.sent ∧
      ∃ own, p.Called i own ∧ (own = [] ∨ i.Calls (fun _ => True) own ∧ p.Answered i) :=
  ⟨ProcessRun.sent hrun, (ProcessRun.progress hrun).own⟩

theorem commands_sent_exec : ∃ p : Process Unit Int, p.pc = .exited 3 ∧
    p.Sent .little [] ∧ ∃ own, p.Called execInvocation own ∧
      (own = [] ∨ execInvocation.Calls (fun _ => True) own ∧ p.Answered execInvocation) := by
  obtain ⟨p, hrun, hpc, -⟩ := exec_exited
  exact ⟨p, hpc, commands_sent ((exec_main (p := execStarting) rfl).trans hrun)⟩

end Main

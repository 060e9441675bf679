import Ps2Client.Ps2link.Proofs.CommandsProofs
import Ps2Client.Ps2netfs.Proofs.CommandsProofs
import Ps2Client.Wire.Commands

/-!
# Proofs: path operands
-/

namespace Wire

open CMemory Network

variable (e : Endian)

theorem Command.call_emitted (c : Command) (stack : List Byte) (s : Socket) :
    Emitted s (c.call e stack s).2 (c.sends e stack) := by
  cases c with
  | link c =>
    show Emitted s (c.call e stack s).2 (if c.refused stack then [] else c.packet e stack)
    by_cases hc : c.refused stack = true
    · rw [if_pos hc, c.call_refused e stack s hc]
      exact Emitted.refl s
    · rw [if_neg hc]
      exact c.call_emitted e stack s (eq_false_of_ne_true hc)
  | netfs c =>
    show Emitted s (c.call e stack s).2.2 (if c.Refused then [] else c.packet e stack ++ c.data)
    by_cases hc : c.Refused
    · rw [if_pos hc, Ps2netfs.call_refused e hc]
      exact Emitted.refl s
    · rw [if_neg hc]
      exact c.call_emitted e stack s hc

/-! ## Commands with operands -/

theorem Command.Operand.mem {c : Command} {off : Nat} {s : CStr} (hop : c.Operand off s)
    (stack : List Byte) : Field.text (some s) ∈ c.fields stack := by
  obtain ⟨pre, post, hfields, -⟩ := hop stack
  rw [hfields]
  exact List.mem_append_right pre List.mem_cons_self

theorem link_accepted {c : Ps2link.Command} {stack : List Byte} {s : CStr}
    (hmem : Field.text (some s) ∈ c.fields stack) : c.refused stack = false := by
  cases c with
  | execiop | execee => simp [Ps2link.Command.fields] at hmem
  | _ => rfl

/-- Only `ps2netfs_command_open` checks its operand. -/
theorem netfs_refused_iff {c : Ps2netfs.Command} {s : CStr}
    (hmem : Field.text (some s) ∈ c.fields) :
    c.Refused ↔ Command.isOpen (.netfs c) = true ∧ 256 ≤ s.length := by
  cases c with
  | «open» pathname flags =>
    have hname : pathname = some s := by simpa [Ps2netfs.Command.fields, eq_comm] using hmem
    rw [hname]
    constructor
    · intro h
      exact ⟨rfl, h s rfl⟩
    · rintro ⟨-, h⟩ t ht
      cases ht
      exact h
  | read fd size => simp [Ps2netfs.Command.fields] at hmem
  | _ =>
    constructor
    · exact False.elim
    · rintro ⟨h, -⟩
      exact absurd h Bool.false_ne_true

theorem netfs_data {c : Ps2netfs.Command} {s : CStr} (hmem : Field.text (some s) ∈ c.fields) :
    c.data = [] := by
  cases c with
  | write fd size buffer => simp [Ps2netfs.Command.fields] at hmem
  | _ => rfl

/-- A command whose operand is not refused sends its packet. -/
theorem Command.sends_operand {c : Command} {off : Nat} {s : CStr} (hop : c.Operand off s)
    (hopen : c.isOpen = true → s.length ≤ 255) (stack : List Byte) :
    ∃ number pre post stack', c.sends e stack =
        CMemory.packet e number (pre ++ .text (some s) :: post) stack' ∧ 6 + sizeof pre = off := by
  have hmem := hop.mem stack
  obtain ⟨pre, post, hfields, hoff⟩ := hop stack
  cases c with
  | link c =>
    have hsends : Command.sends e (.link c) stack = c.packet e stack := by
      refine if_neg ?_
      rw [link_accepted hmem]
      exact Bool.false_ne_true
    refine ⟨c.number, pre, post, stack, ?_, hoff⟩
    rw [hsends, ← hfields]
    rfl
  | netfs c =>
    have hsends : Command.sends e (.netfs c) stack = c.packet e stack := by
      refine (if_neg ?_).trans ?_
      · rw [netfs_refused_iff hmem]
        rintro ⟨hisOpen, hlong⟩
        have := hopen hisOpen
        omega
      · rw [netfs_data hmem, List.append_nil]
    refine ⟨c.number, pre, post, c.base stack, ?_, hoff⟩
    rw [hsends, ← hfields]
    rfl

/-- An operand that fits is sent whole. -/
theorem Command.sentWhole_of_fits {c : Command} {off : Nat} {s : CStr} (hop : c.Operand off s)
    (hs : s.length ≤ 255) : c.SentWhole off s := by
  intro e stack socket
  obtain ⟨number, pre, post, stack', hsends, hoff⟩ := c.sends_operand e hop (fun _ => hs) stack
  refine .inl ⟨c.sends e stack, c.call_emitted e stack socket, by omega, ?_⟩
  rw [hsends]
  exact peek_packet_text e number pre s post stack' hs hoff

/-- `ps2netfs_command_open` sends nothing for an operand that does not fit. -/
theorem Command.sentWhole_of_isOpen {c : Command} {off : Nat} {s : CStr} (hop : c.Operand off s)
    (hopen : c.isOpen = true) (hs : 256 ≤ s.length) : c.SentWhole off s := by
  intro e stack socket
  refine .inr ?_
  cases c with
  | link c => cases hopen
  | netfs c =>
    have hrefused := (netfs_refused_iff (hop.mem stack)).mpr ⟨hopen, hs⟩
    show (c.call e stack socket).1 < 0 ∧ (c.call e stack socket).2.2.sent = socket.sent
    rw [Ps2netfs.call_refused e hrefused]
    exact ⟨Int.negSucc_lt_zero 0, rfl⟩

/-- Every other command sends an operand that does not fit, cut off. -/
theorem Command.not_sentWhole {c : Command} {off : Nat} {s : CStr} (hop : c.Operand off s)
    (hopen : c.isOpen = false) (hs : 256 ≤ s.length) : ¬ c.SentWhole off s := by
  intro hwhole
  obtain ⟨number, pre, post, stack', hsends, -⟩ :=
    c.sends_operand .big hop (fun h => absurd (hopen.symm.trans h) Bool.false_ne_true) []
  have hsent := (c.call_emitted .big [] (Socket.receiving [])).sent_writable (List.not_mem_nil)
  rcases hwhole .big [] (Socket.receiving []) with ⟨bytes, -, hlt, -⟩ | ⟨-, hsame⟩
  · omega
  · rw [hsent, hsends] at hsame
    have hlen := congrArg List.length hsame
    rw [List.length_append, packet_length] at hlen
    omega

/-- An operand of any length is sent whole or not at all exactly when the command is `open` of
ps2netfs or the operand leaves room for its null. -/
theorem operand_whole_iff {c : Command} {off : Nat} {s : CStr} (hop : c.Operand off s) :
    c.SentWhole off s ↔ c.isOpen = true ∨ s.length ≤ 255 := by
  by_cases hs : s.length ≤ 255
  · exact ⟨fun _ => .inr hs, fun _ => Command.sentWhole_of_fits hop hs⟩
  · cases hopen : c.isOpen with
    | true =>
      exact ⟨fun _ => .inl rfl, fun _ => Command.sentWhole_of_isOpen hop hopen (by omega)⟩
    | false =>
      constructor
      · intro hwhole
        exact absurd hwhole (Command.not_sentWhole hop hopen (by omega))
      · rintro (h | h)
        · cases h
        · exact absurd h hs

theorem operand_whole_iff_dumpmem :
    Command.Operand (.link (.dumpmem 0 16 (some ⟨[ascii 'a'], by decide⟩))) 14 ⟨[ascii 'a'], by decide⟩ ∧
      Command.SentWhole (.link (.dumpmem 0 16 (some ⟨[ascii 'a'], by decide⟩))) 14
        ⟨[ascii 'a'], by decide⟩ := by
  have hop : Command.Operand (.link (.dumpmem 0 16 (some ⟨[ascii 'a'], by decide⟩))) 14
      ⟨[ascii 'a'], by decide⟩ := fun _ => ⟨[.word 0, .word 16], [], rfl, rfl⟩
  exact ⟨hop, (operand_whole_iff hop).mpr (.inr (by decide))⟩

/-- A path of 256 bytes. -/
def longPath : CStr where
  bytes := List.replicate 256 (ascii 'a')
  noNull h := absurd (List.eq_of_mem_replicate h) (by decide)

/-- `delete` of a file names another one. -/
theorem not_operand_whole :
    Command.Operand (.netfs (.delete (some longPath) 0)) 10 longPath ∧
      ¬ Command.SentWhole (.netfs (.delete (some longPath) 0)) 10 longPath := by
  have hop : Command.Operand (.netfs (.delete (some longPath) 0)) 10 longPath :=
    fun _ => ⟨[.word 0], [], rfl, rfl⟩
  refine ⟨hop, Command.not_sentWhole hop rfl ?_⟩
  exact Nat.le_of_eq (List.length_replicate).symm

end Wire

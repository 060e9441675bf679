import Ps2Client.Network.Proofs.TransferProofs
import Ps2Client.Ps2link.Commands
import Ps2Client.Utility.Proofs.FixArgvProofs

/-!
# Proofs: the commands of ps2link
-/

namespace Ps2link

open CMemory Network Utility

variable (e : Endian) (c : Command) (stack : List Byte)

@[simp] theorem Command.packet_length : (c.packet e stack).length = 6 + sizeof (c.fields stack) :=
  CMemory.packet_length ..

theorem Command.call_refused (s : Socket) (h : c.refused stack = true) :
    c.call e stack s = (-1, s) := by
  rw [Command.call, if_pos h]

theorem Command.call_eq (s : Socket) (h : c.refused stack = false) :
    c.call e stack s = networkSend s (c.packet e stack) (6 + sizeof (c.fields stack)) := by
  rw [Command.call, if_neg (by rw [h]; exact Bool.false_ne_true)]

/-- A command that is not refused sends its packet. -/
theorem Command.call_emitted (s : Socket) (h : c.refused stack = false) :
    Emitted s (c.call e stack s).2 (c.packet e stack) := by
  have hsize : (6 + sizeof (c.fields stack) : Int).toNat = (c.packet e stack).length := by
    rw [Command.packet_length]
    omega
  have hemitted := networkSend_emitted s (c.packet e stack) hsize
  rw [peek_self] at hemitted
  rw [c.call_eq e stack s h]
  exact hemitted

theorem Command.call_writable {s : Socket} (hw : s.Writable) (h : c.refused stack = false) :
    (c.call e stack s).2.sent = s.sent ++ c.packet e stack :=
  (c.call_emitted e stack s h).sent_writable hw

/-- On a connection that takes everything a command that is not refused succeeds. -/
theorem Command.call_succeeds {s : Socket} (hw : s.Writable) (h : c.refused stack = false) :
    0 ≤ (c.call e stack s).1 ∧ (c.call e stack s).2.Writable := by
  rw [c.call_eq e stack s h]
  obtain ⟨s', hsend, -, -, hw'⟩ := networkSend_writable (c.packet e stack) rfl hw
  rw [hsend]
  exact ⟨Int.natCast_nonneg _, hw'⟩

/-! ## The arguments of `execiop` and `execee` -/

theorem packArgv_result (argv : List CStr) :
    (packArgv argv stack).1 = if (joined argv).length ≤ 256 then 0 else -1 :=
  fixArgv_result ..

theorem packArgv_eq {argv : List CStr} (hfit : (joined argv).length ≤ 256) :
    (packArgv argv stack).2 = joined argv ++ List.replicate (256 - (joined argv).length) 0 :=
  fixArgv_eq (peek_length ..) hfit

end Ps2link

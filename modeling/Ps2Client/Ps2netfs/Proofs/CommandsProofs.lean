import Ps2Client.CMemory.Proofs.StructProofs
import Ps2Client.Network.Proofs.TransferProofs
import Ps2Client.Ps2netfs.Commands

/-!
# Proofs: the commands of ps2netfs
-/

namespace Ps2netfs

open CMemory Network

variable (e : Endian) (c : Command)

/-- A refused call sends nothing. -/
theorem call_refused {c : Command} (hc : c.Refused) (stack : List Byte) (s : Socket) :
    c.call e stack s = (-1, [], s) := by
  rw [Command.call, if_pos hc]

/-! ## Receiving sends nothing -/

theorem receiveData_socket (size : Word) (response : List Byte) (s : Socket) :
    ∃ a, (receiveData e size response s).2.2 = { s with arrivals := a } := by
  unfold receiveData
  dsimp only
  split_ifs with hneg hlong hfail
  · exact ⟨s.arrivals, rfl⟩
  · exact ⟨s.arrivals, rfl⟩
  · exact networkReceiveAll_socket s _
  · exact networkReceiveAll_socket s _

theorem finish_socket (response : List Byte) (s : Socket) :
    ∃ a, (c.finish e response s).2.2 = { s with arrivals := a } := by
  cases c with
  | read fd size => exact receiveData_socket e size response s
  | _ => exact ⟨s.arrivals, rfl⟩

theorem receive_socket (s : Socket) : ∃ a, (c.receive e s).2.2 = { s with arrivals := a } := by
  obtain ⟨a, ha⟩ := networkReceiveAll_socket s c.responseSize
  unfold Command.receive
  dsimp only
  split_ifs with hfail
  · exact ⟨a, ha⟩
  · obtain ⟨b, hb⟩ := finish_socket e c (networkReceiveAll s c.responseSize).2.1
      (networkReceiveAll s c.responseSize).2.2
    refine ⟨b, ?_⟩
    rw [hb, ha]

/-! ## What a call returns -/

theorem toInt32_toInt (w : Word) : toInt32 w.toInt = w.toInt := by
  rw [toInt32, BitVec.ofInt_toInt]

theorem receiveData_int (size : Word) (response : List Byte) (s : Socket) :
    toInt32 (receiveData e size response s).1 = (receiveData e size response s).1 := by
  unfold receiveData
  dsimp only
  split_ifs
  · exact toInt32_toInt _
  · rfl
  · rfl
  · exact toInt32_toInt _

theorem receive_int (s : Socket) : toInt32 (c.receive e s).1 = (c.receive e s).1 := by
  unfold Command.receive
  dsimp only
  split_ifs
  · rfl
  · cases c with
    | read fd size => exact receiveData_int e size _ _
    | _ => exact toInt32_toInt _

/-- A command function returns an `int`. -/
theorem call_int (stack : List Byte) (s : Socket) :
    toInt32 (c.call e stack s).1 = (c.call e stack s).1 := by
  unfold Command.call
  dsimp only
  split_ifs
  · rfl
  · rfl
  · cases c with
    | write fd size buffer =>
      unfold Command.sendData
      dsimp only
      split_ifs
      · rfl
      · exact receive_int e _ _
    | _ => exact receive_int e _ _

/-- What is stored of the data fits the size that was asked for. -/
theorem receiveData_stored (size : Word) (response : List Byte) (s : Socket) :
    (receiveData e size response s).2.1.length ≤ size.toInt.toNat ∧
      (0 ≤ (receiveData e size response s).1 →
        ((receiveData e size response s).2.1.length : Int) = (receiveData e size response s).1 ∧
          (receiveData e size response s).1 ≤ size.toInt) := by
  unfold receiveData
  dsimp only
  generalize result e response = received
  generalize size.toInt = n
  obtain ⟨hle, hall⟩ := networkReceiveAll_stored s received
  split_ifs with hneg hlong hfail
  · exact ⟨Nat.zero_le _, fun hpos => absurd hneg (by omega)⟩
  · exact ⟨Nat.zero_le _, nofun⟩
  · exact ⟨hle.trans (Int.toNat_le_toNat (by omega)), nofun⟩
  · refine ⟨hle.trans (Int.toNat_le_toNat (by omega)), fun _ => ⟨?_, by omega⟩⟩
    exact (congrArg Int.ofNat (hall hfail)).trans (Int.toNat_of_nonneg (by omega))

/-- `ps2netfs_command_read` stores at most as many bytes as it asked for, whatever the server
answers, and when it succeeds as many as it returns. -/
theorem call_read_stored (fd size : Word) (stack : List Byte) (s : Socket) :
    ((Command.read fd size).call e stack s).2.1.length ≤ size.toInt.toNat ∧
      (0 ≤ ((Command.read fd size).call e stack s).1 →
        (((Command.read fd size).call e stack s).2.1.length : Int) =
            ((Command.read fd size).call e stack s).1 ∧
          ((Command.read fd size).call e stack s).1 ≤ size.toInt) := by
  unfold Command.call Command.sendData Command.receive
  dsimp only
  split_ifs
  · exact ⟨Nat.zero_le _, nofun⟩
  · exact ⟨Nat.zero_le _, nofun⟩
  · exact ⟨Nat.zero_le _, nofun⟩
  · exact receiveData_stored e size _ _

/-! ## What a call receives -/

theorem finish_incoming (response : List Byte) (s : Socket) :
    ∃ pre, s.incoming = pre ++ (c.finish e response s).2.2.incoming := by
  cases c with
  | read fd size =>
    unfold Command.finish receiveData
    dsimp only
    split_ifs
    · exact ⟨[], rfl⟩
    · exact ⟨[], rfl⟩
    · obtain ⟨pre, hpre, -⟩ := networkReceiveAll_incoming s (result e response)
      exact ⟨pre, hpre⟩
    · obtain ⟨pre, hpre, -⟩ := networkReceiveAll_incoming s (result e response)
      exact ⟨pre, hpre⟩
  | _ => exact ⟨[], rfl⟩

/-- A call that succeeds has taken its response off the connection. -/
theorem receive_incoming (s : Socket) :
    ∃ pre, s.incoming = pre ++ (c.receive e s).2.2.incoming ∧
      (¬ (c.receive e s).1 < 0 → c.responseSize ≤ pre.length) := by
  obtain ⟨pre, hpre, hlength⟩ := networkReceiveAll_incoming s c.responseSize
  unfold Command.receive
  dsimp only
  split_ifs with hfail
  · exact ⟨pre, hpre, minus_one_failed⟩
  · obtain ⟨more, hmore⟩ := finish_incoming e c (networkReceiveAll s c.responseSize).2.1
      (networkReceiveAll s c.responseSize).2.2
    refine ⟨pre ++ more, ?_, fun _ => ?_⟩
    · rw [List.append_assoc, ← hmore]
      exact hpre
    · have hpre := hlength hfail
      rw [List.length_append]
      omega

/-- So has one that sends data. -/
theorem sendData_incoming (s : Socket) :
    ∃ pre, s.incoming = pre ++ (c.sendData e s).2.2.incoming ∧
      (¬ (c.sendData e s).1 < 0 → c.responseSize ≤ pre.length) := by
  cases c with
  | write fd size buffer =>
    unfold Command.sendData
    dsimp only
    rw [← networkSend_incoming s buffer size.toInt]
    split_ifs
    · exact ⟨[], rfl, minus_one_failed⟩
    · exact receive_incoming e _ _
  | _ => exact receive_incoming e _ _

/-- A call takes bytes off the front of the stream, and unless it fails the whole response. -/
theorem call_incoming (stack : List Byte) (s : Socket) :
    ∃ pre, s.incoming = pre ++ (c.call e stack s).2.2.incoming ∧
      (¬ (c.call e stack s).1 < 0 → c.responseSize ≤ pre.length) := by
  unfold Command.call
  dsimp only
  rw [← networkSend_incoming s (c.packet e stack) (6 + sizeof c.fields)]
  split_ifs with hrefused hfail
  · exact ⟨[], networkSend_incoming _ _ _, minus_one_failed⟩
  · exact ⟨[], rfl, minus_one_failed⟩
  · exact sendData_incoming e c _

/-! ## What a call sends -/

theorem receive_emitted {s s' : Socket} {bs : List Byte} (h : Emitted s s' bs) :
    Emitted s (c.receive e s').2.2 bs := by
  obtain ⟨a, ha⟩ := receive_socket e c s'
  rw [ha]
  exact h.arrivals a

theorem sendData_emitted {s s' : Socket} {bs : List Byte} (h : Emitted s s' bs) :
    Emitted s (c.sendData e s').2.2 (bs ++ c.data) := by
  cases c with
  | write fd size buffer =>
    have hdata := h.trans (networkSend_emitted s' buffer (n := size.toInt.toNat) rfl)
    unfold Command.sendData
    dsimp only
    split_ifs with hfail
    · exact hdata
    · exact receive_emitted e _ hdata
  | _ =>
    show Emitted s (Command.receive e _ s').2.2 (bs ++ [])
    rw [List.append_nil]
    exact receive_emitted e _ h

/-- A command that is not refused sends its packet and its data. -/
theorem Command.call_emitted (stack : List Byte) (s : Socket) (hc : ¬ c.Refused) :
    Emitted s (c.call e stack s).2.2 (c.packet e stack ++ c.data) := by
  have hsize : (6 + sizeof c.fields : Int).toNat = (c.packet e stack).length :=
    (Int.toNat_natCast _).trans (packet_length ..).symm
  have hpacket := networkSend_emitted s (c.packet e stack) hsize
  rw [peek_self] at hpacket
  unfold Command.call
  rw [if_neg hc]
  dsimp only
  split_ifs with hfail
  · -- The connection is dead, and the data would not go out either.
    exact hpacket.trans (.of_dead (networkSend_failed hfail) c.data)
  · exact sendData_emitted e c hpacket

end Ps2netfs

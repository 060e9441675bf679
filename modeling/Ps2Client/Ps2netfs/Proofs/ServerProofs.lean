import Ps2Client.Network.Proofs.StreamsProofs
import Ps2Client.Ps2netfs.Proofs.ProtocolProofs
import Ps2Client.Ps2netfs.Proofs.SessionProofs
import Ps2Client.Ps2netfs.Server

/-!
# Proofs: a server of ps2netfs

A command that does not fail has had one request taken and one answer given, and a conversation that
starts with the two starts with a turn of the server for that command.
-/

namespace Ps2netfs

open CMemory Network Posix

variable {e : Endian} {c : Command} {fs fs' : ServerFiles}

/-! ## A command that does not fail -/

/-- What a call that does not fail has received. -/
structure Answered (c : Command) (s : Socket) (r : Int × List Byte × Socket) (a : Answer) : Prop where
  answer : a.IsTo c
  told : c.told a = (r.1, r.2.1)
  incoming : s.incoming = a.bytes ++ r.2.2.incoming

theorem receiveAll_whole {s : Socket} {n : Nat} (hok : ¬ (networkReceiveAll s n).1 < 0) :
    (networkReceiveAll s n).2.1.length = n ∧
      s.incoming = (networkReceiveAll s n).2.1 ++ (networkReceiveAll s n).2.2.incoming := by
  rcases networkReceiveAll_cases s n with ⟨-, a, hrun, -⟩ | ⟨hle, a, hrun, hleft⟩
  · rw [hrun] at hok
    exact minus_one_failed hok
  · rw [hrun]
    refine ⟨List.length_take_of_le hle, ?_⟩
    show s.incoming = s.incoming.take n ++ arrivedBytes a
    rw [hleft, List.take_append_drop]

/-- A `read` that does not fail has received a response and its data. -/
theorem receiveData_answered {fd size : Word} {response : List Byte} {s : Socket}
    (hresponse : response.length = 14) (hok : 0 ≤ (receiveData e size response s).1) :
    ∃ data, (⟨response, data⟩ : Answer).IsTo (.read fd size) ∧
      (Command.read fd size).told ⟨response, data⟩ =
        ((receiveData e size response s).1, (receiveData e size response s).2.1) ∧
      s.incoming = data ++ (receiveData e size response s).2.2.incoming := by
  have hresult : (⟨response, (networkReceiveAll s (result e response)).2.1⟩ : Answer).result =
      result e response := (result_eq e response).symm
  unfold receiveData at hok ⊢
  dsimp only at hok ⊢
  generalize hgot : networkReceiveAll s (result e response) = got at hok hresult ⊢
  by_cases hneg : result e response < 0
  · rw [if_pos hneg] at hok
    exact absurd hok (Int.not_le.mpr hneg)
  by_cases hlong : size.toInt < result e response
  · rw [if_neg hneg, if_pos hlong] at hok
    exact minus_one_failed (Int.not_lt.mpr hok)
  by_cases hfail : got.1 < 0
  · rw [if_neg hneg, if_neg hlong, if_pos hfail] at hok
    exact minus_one_failed (Int.not_lt.mpr hok)
  rw [if_neg hneg, if_neg hlong, if_neg hfail]
  rw [← networkReceiveAll_toNat] at hgot
  have hwhole := receiveAll_whole (s := s) (n := (result e response).toNat)
  rw [hgot] at hwhole
  obtain ⟨hlength, hincoming⟩ := hwhole hfail
  refine ⟨got.2.1, ⟨hresponse, ?_, ?_⟩, ?_, hincoming⟩
  · rw [hresult, hlength]
    omega
  · rw [hresult]
    omega
  · rw [Command.told, hresult]

theorem finish_answered {response : List Byte} {s : Socket}
    (hresponse : response.length = c.responseSize) (hok : 0 ≤ (c.finish e response s).1) :
    ∃ data, (⟨response, data⟩ : Answer).IsTo c ∧
      c.told ⟨response, data⟩ = ((c.finish e response s).1, (c.finish e response s).2.1) ∧
      s.incoming = data ++ (c.finish e response s).2.2.incoming := by
  cases c with
  | read fd size => exact receiveData_answered hresponse hok
  | _ =>
    refine ⟨[], ⟨hresponse, rfl⟩, ?_, rfl⟩
    exact congrArg (Prod.mk · _) (result_eq e response).symm

theorem receive_answered {s : Socket} (hok : 0 ≤ (c.receive e s).1) :
    ∃ a, Answered c s (c.receive e s) a := by
  unfold Command.receive at hok ⊢
  dsimp only at hok ⊢
  by_cases hfail : (networkReceiveAll s c.responseSize).1 < 0
  · rw [if_pos hfail] at hok
    exact minus_one_failed (Int.not_lt.mpr hok)
  rw [if_neg hfail] at hok ⊢
  obtain ⟨hlength, hincoming⟩ := receiveAll_whole hfail
  obtain ⟨data, hanswer, htold, hrest⟩ := finish_answered hlength hok
  refine ⟨_, hanswer, htold, ?_⟩
  rw [hincoming, hrest, Answer.bytes, List.append_assoc]

/-- A send that does not fail has sent all of the first `n` bytes. -/
theorem networkSend_whole {s : Socket} {buffer : List Byte} {size : Int}
    (hok : ¬ (networkSend s buffer size).1 < 0) :
    (networkSend s buffer size).2.sent = s.sent ++ peek buffer 0 size.toNat := by
  rcases sendLoop_exact buffer size.toNat 0 s (Nat.zero_le _) with ⟨-, hsent⟩ | ⟨hresult, -⟩
  · exact hsent
  · rw [networkSend, hresult] at hok
    exact minus_one_failed hok

theorem receive_sent (s : Socket) : (c.receive e s).2.2.sent = s.sent := by
  obtain ⟨a, ha⟩ := receive_socket e c s
  rw [ha]

theorem sendData_answered {s : Socket} (hok : 0 ≤ (c.sendData e s).1) :
    (∃ a, Answered c s (c.sendData e s) a) ∧ (c.sendData e s).2.2.sent = s.sent ++ c.data := by
  cases c with
  | write fd size buffer =>
    unfold Command.sendData at hok ⊢
    dsimp only at hok ⊢
    by_cases hfail : (networkSend s buffer size.toInt).1 < 0
    · rw [if_pos hfail] at hok
      exact minus_one_failed (Int.not_lt.mpr hok)
    rw [if_neg hfail] at hok ⊢
    obtain ⟨a, hanswer, htold, hincoming⟩ := receive_answered hok
    refine ⟨⟨a, hanswer, htold, ?_⟩, ?_⟩
    · rw [← hincoming, networkSend_incoming]
    · rw [receive_sent, networkSend_whole hfail]
      rfl
  | _ =>
    refine ⟨receive_answered hok, (receive_sent s).trans ?_⟩
    exact (List.append_nil s.sent).symm

/-- A command that does not fail has sent all of its packet and its data, and received an answer. -/
theorem call_answered {stack : List Byte} {s : Socket} (hok : 0 ≤ (c.call e stack s).1) :
    ¬ c.Refused ∧ (∃ a, Answered c s (c.call e stack s) a) ∧
      (c.call e stack s).2.2.sent = s.sent ++ (c.packet e stack ++ c.data) := by
  have hsize : (6 + sizeof c.fields : Int).toNat = (c.packet e stack).length :=
    (Int.toNat_natCast _).trans (packet_length ..).symm
  by_cases hrefused : c.Refused
  · rw [call_refused e hrefused] at hok
    exact minus_one_failed (Int.not_lt.mpr hok)
  refine ⟨hrefused, ?_⟩
  unfold Command.call at hok ⊢
  rw [if_neg hrefused] at hok ⊢
  dsimp only at hok ⊢
  by_cases hfail : (networkSend s (c.packet e stack) (6 + sizeof c.fields)).1 < 0
  · rw [if_pos hfail] at hok
    exact minus_one_failed (Int.not_lt.mpr hok)
  rw [if_neg hfail] at hok ⊢
  have hpacket := networkSend_whole hfail
  rw [hsize, peek_self] at hpacket
  obtain ⟨⟨a, hanswer, htold, hincoming⟩, hsent⟩ := sendData_answered hok
  refine ⟨⟨a, hanswer, htold, ?_⟩, ?_⟩
  · rw [← hincoming, networkSend_incoming]
  · rw [hsent, hpacket, List.append_assoc]

/-! ## A turn of the server -/

variable {r : Received} {a a' : Answer} {rest rest' : List Byte}

/-- The answers to one command can be told apart on the stream. -/
theorem answer_unique (ha : a.IsTo c) (ha' : a'.IsTo c) (heq : a.bytes ++ rest = a'.bytes ++ rest') :
    a = a' ∧ rest = rest' := by
  obtain ⟨response, data⟩ := a
  obtain ⟨response', data'⟩ := a'
  obtain ⟨hlength, hdata⟩ := ha
  obtain ⟨hlength', hdata'⟩ := ha'
  rw [Answer.bytes, Answer.bytes, List.append_assoc, List.append_assoc] at heq
  obtain ⟨rfl, heq⟩ := List.append_inj heq (hlength.trans hlength'.symm)
  have hsame : data.length = data'.length := by
    cases c with
    | read fd size =>
      have hsize : (data.length : Int) = max (Answer.result ⟨response, data⟩) 0 := hdata.1
      have hsize' : (data'.length : Int) = max (Answer.result ⟨response, data⟩) 0 := hdata'.1
      exact Int.ofNat.inj (hsize.trans hsize'.symm)
    | _ =>
      have hnil : data = [] := hdata
      have hnil' : data' = [] := hdata'
      rw [hnil, hnil']
  obtain ⟨rfl, hrest⟩ := List.append_inj heq hsame
  exact ⟨rfl, hrest⟩

/-- The document and the client agree on what follows a request, and on its answer. -/
theorem meant_shape (hmeant : c.meant = some r) :
    c.data.length = r.dataSize ∧ ∀ a : Answer, a.IsFor r → a.IsTo c := by
  cases c with
  | write fd size buffer =>
    cases hmeant
    exact ⟨peek_length .., fun _ ha => ha⟩
  | close fd | read fd size | lseek fd offset whence | dclose dd | dread dd =>
    cases hmeant
    exact ⟨rfl, fun _ ha => ha⟩
  | «open» s flags | delete s flags | mkdir s flags | rmdir s flags | dopen s flags | sync s flags
  | umount s flags | devlist s flags =>
    cases s with
    | none => cases hmeant
    | some s =>
      cases hmeant
      exact ⟨rfl, fun _ ha => ha⟩
  | mount device fsname flags argv argc =>
    rcases device with _ | device
    · cases hmeant
    rcases fsname with _ | fsname
    · cases hmeant
    rcases argv with _ | argv
    · cases hmeant
    cases hmeant
    exact ⟨rfl, fun _ ha => ha⟩

/-- The length field of a packet that other bytes follow. -/
theorem net16_length (stack rest : List Byte) :
    (net16 (c.packet e stack ++ rest) 4).toNat = (c.packet e stack).length := by
  rw [← length_field e c stack]
  have hlength := packet_fields_length e c stack
  have hbyte : ∀ i, i < 2 →
      byteAt (c.packet e stack ++ rest) (4 + i) = byteAt (c.packet e stack) (4 + i) :=
    fun i hi => byteAt_append_left _ _ (by omega)
  unfold net16
  rw [hbyte 1 (by omega), show 4 = 4 + 0 from rfl, hbyte 0 (by omega)]

/-- What the server says it has done with a request for an open file. -/
theorem Turn.serves {op : Op (List Byte) Byte} (hturn : Turn r a fs fs') (hok : 0 ≤ a.result)
    (hop : r.op = some op) (hopen : ∀ flags pathname, r ≠ .open flags pathname) :
    ∃ reply, Serves op reply fs fs' ∧ a.Tells op reply := by
  cases hturn with
  | refused _ _ hfailed => exact absurd hok (Int.not_le.mpr hfailed)
  | served hop' hserves htells =>
    rw [hop] at hop'
    cases hop'
    exact ⟨_, hserves, htells⟩
  | created => exact absurd rfl (hopen _ _)
  | other hnone =>
    rw [hop] at hnone
    cases hnone

/-- A request is taken whole. -/
theorem drop_request (hmeant : c.meant = some r) (stack requests : List Byte) :
    (c.packet e stack ++ (c.data ++ requests)).drop
      ((net16 (c.packet e stack ++ (c.data ++ requests)) 4).toNat + r.dataSize) = requests := by
  rw [net16_length, ← (meant_shape hmeant).1, ← List.drop_drop, List.drop_left, List.drop_left]

/-- A command and an answer to it may come before any conversation. -/
theorem Conversation.of_turn {stack requests answers : List Byte} {fs₁ : ServerFiles} (hfits : c.Fits)
    (hnumber : c.misnumbered = false) (hmeant : c.meant = some r) (ha : a.IsFor r)
    (hturn : Turn r a fs fs₁) (hrest : Conversation requests answers fs₁ fs') :
    Conversation (c.packet e stack ++ (c.data ++ requests)) (a.bytes ++ answers) fs fs' := by
  refine .turn ((decode_command e hfits hnumber stack requests).trans hmeant) ha hturn ?_
  rw [drop_request hmeant]
  exact hrest

/-- A conversation that starts with a command and an answer to it starts with a turn for them. -/
theorem Conversation.turn_of {stack requests answers : List Byte} (hfits : c.Fits)
    (hnumber : c.misnumbered = false) (hmeant : c.meant = some r) (ha : a.IsTo c)
    (hconversation : Conversation (c.packet e stack ++ (c.data ++ requests)) (a.bytes ++ answers)
      fs fs') :
    ∃ fs₁, Turn r a fs fs₁ ∧ Conversation requests answers fs₁ fs' := by
  have hdecode := (decode_command e hfits hnumber stack requests).trans hmeant
  have hdrop := drop_request (e := e) hmeant stack requests
  generalize c.packet e stack ++ (c.data ++ requests) = sent at hconversation hdecode hdrop
  generalize hheard : a.bytes ++ answers = heard at hconversation
  cases hconversation with
  | quiet => cases hdecode
  | turn hrequest hanswer hturn hrest =>
    rw [hdecode] at hrequest
    cases hrequest
    obtain ⟨rfl, rfl⟩ := answer_unique ha ((meant_shape hmeant).2 _ hanswer) hheard
    rw [hdrop] at hrest
    exact ⟨_, hturn, hrest⟩

end Ps2netfs

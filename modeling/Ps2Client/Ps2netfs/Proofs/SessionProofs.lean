import Ps2Client.Ps2netfs.Proofs.CommandsProofs
import Ps2Client.Ps2netfs.Session

/-!
# Proofs: sequences of ps2netfs commands
-/

namespace Ps2netfs

open CMemory Network

variable (e : Endian)

/-! ## One call -/

theorem result_eq (response : List Byte) : result e response = (net32 response 6).toInt := by
  rw [result, ntohl_load32]

/-- A command reads its answer, and nothing else, off the stream. -/
theorem receive_answer {c : Command} {a : Answer} (ha : a.IsTo c) {s : Socket} {rest : List Byte}
    (hin : s.incoming = a.bytes ++ rest) :
    ∃ b, arrivedBytes b = rest ∧
      c.receive e s = ((c.told a).1, (c.told a).2, { s with arrivals := b }) := by
  obtain ⟨hlen, hdata⟩ := ha
  rw [Answer.bytes, List.append_assoc] at hin
  obtain ⟨b, hrun, hb⟩ := networkReceiveAll_enough c.responseSize hin hlen
  have hreceive : c.receive e s = c.finish e a.response { s with arrivals := b } := by
    unfold Command.receive
    rw [hrun]
    exact if_neg (by omega)
  rw [hreceive]
  cases c with
  | read fd size =>
    obtain ⟨hcount, hle⟩ := hdata
    simp only [Command.finish, receiveData, result_eq]
    rw [← Answer.result]
    by_cases hneg : a.result < 0
    · have hnone : a.data = [] := List.eq_nil_of_length_eq_zero (by omega)
      rw [hnone] at hb
      refine ⟨b, hb, ?_⟩
      rw [if_pos hneg, Command.told, hnone]
    · have hnat : a.result = (a.data.length : Int) := by omega
      obtain ⟨b', hrun', hb'⟩ := networkReceiveAll_enough (s := { s with arrivals := b })
        a.data.length hb rfl
      refine ⟨b', hb', ?_⟩
      rw [if_neg hneg, if_neg (by omega), hnat, hrun']
      refine (if_neg (by omega)).trans ?_
      rw [Command.told, hnat]
  | _ =>
    rw [hdata] at hb
    refine ⟨b, hb, ?_⟩
    simp only [Command.finish, result_eq, Command.told, Answer.result]

/-- The data of a command go out before its answer is read. -/
theorem sendData_answer {c : Command} {a : Answer} (ha : a.IsTo c) {s : Socket} {rest : List Byte}
    (hw : s.Writable) (hin : s.incoming = a.bytes ++ rest) :
    ∃ s', c.sendData e s = ((c.told a).1, (c.told a).2, s') ∧ s'.incoming = rest ∧
      s'.sent = s.sent ++ c.data ∧ s'.Writable := by
  cases c with
  | write fd size buffer =>
    obtain ⟨s₁, hsend, hsent, hin₁, hw₁⟩ :=
      networkSend_writable buffer (show size.toInt.toNat = size.toInt.toNat from rfl) hw
    obtain ⟨b, hb, hrun⟩ := receive_answer e ha (hin₁.trans hin)
    refine ⟨{ s₁ with arrivals := b }, ?_, hb, hsent, hw₁⟩
    unfold Command.sendData
    dsimp only
    rw [hsend]
    exact (if_neg (by omega)).trans hrun
  | _ =>
    obtain ⟨b, hb, hrun⟩ := receive_answer e ha hin
    exact ⟨{ s with arrivals := b }, hrun, hb, (List.append_nil _).symm, hw⟩

/-- A call that sends its packet returns what its answer says. -/
theorem call_answer {c : Command} {a : Answer} (hc : ¬ c.Refused) (ha : a.IsTo c)
    (stack : List Byte) {s : Socket} {rest : List Byte} (hw : s.Writable)
    (hin : s.incoming = a.bytes ++ rest) :
    ∃ s', c.call e stack s = ((c.told a).1, (c.told a).2, s') ∧ s'.incoming = rest ∧
      s'.sent = s.sent ++ (c.packet e stack ++ c.data) ∧ s'.Writable := by
  have hlen : (6 + sizeof c.fields : Int).toNat = (c.packet e stack).length :=
    (Int.toNat_natCast _).trans (packet_length ..).symm
  obtain ⟨s₁, hsend, hsent, hin₁, hw₁⟩ := networkSend_writable (c.packet e stack) hlen hw
  rw [peek_self] at hsent
  obtain ⟨s', hrun, hin', hsent', hw'⟩ := sendData_answer e ha hw₁ (hin₁.trans hin)
  refine ⟨s', ?_, hin', ?_, hw'⟩
  · unfold Command.call
    rw [if_neg hc]
    dsimp only
    rw [hsend]
    exact (if_neg (by omega)).trans hrun
  · rw [hsent', hsent, List.append_assoc]

/-! ## Sequences of calls -/

theorem sending_refused {c : Command} (hc : c.Refused) (stack : List Byte)
    (calls : List (Command × List Byte)) : sending ((c, stack) :: calls) = sending calls :=
  List.filter_cons_of_neg (by simpa using hc)

theorem sending_sent {c : Command} (hc : ¬ c.Refused) (stack : List Byte)
    (calls : List (Command × List Byte)) :
    sending ((c, stack) :: calls) = (c, stack) :: sending calls :=
  List.filter_cons_of_pos (by simpa using hc)

theorem toldOf_refused {c : Command} (hc : c.Refused) (stack : List Byte)
    (calls : List (Command × List Byte)) (answers : List Answer) :
    toldOf ((c, stack) :: calls) answers = (-1, []) :: toldOf calls answers := by
  rw [toldOf.eq_def]
  exact if_pos hc

theorem toldOf_sent {c : Command} (hc : ¬ c.Refused) (stack : List Byte)
    (calls : List (Command × List Byte)) (a : Answer) (answers : List Answer) :
    toldOf ((c, stack) :: calls) (a :: answers) = c.told a :: toldOf calls answers := by
  rw [toldOf.eq_def]
  exact if_neg hc

/-- Each call that sends a packet returns the result of the answer to it and stores its data, and
exactly the answers are read off the stream, so that the next call finds its own answer there. A call
that is refused sends and reads nothing. -/
theorem calls_in_step (calls : List (Command × List Byte)) (answers : List Answer) {s : Socket}
    {rest : List Byte} (hw : s.Writable)
    (hanswers : List.Forall₂ (fun call a => Answer.IsTo a call.1) (sending calls) answers)
    (hin : s.incoming = (answers.map Answer.bytes).flatten ++ rest) :
    ∃ s', runCalls e calls s = (toldOf calls answers, s') ∧ s'.incoming = rest ∧
      s'.sent = s.sent ++ sentBy e calls := by
  induction calls generalizing answers s with
  | nil =>
    cases hanswers
    exact ⟨s, rfl, hin, (List.append_nil _).symm⟩
  | cons call calls ih =>
    obtain ⟨c, stack⟩ := call
    by_cases hc : c.Refused
    · rw [sending_refused hc] at hanswers
      obtain ⟨s', hrun, hin', hsent⟩ := ih answers hw hanswers hin
      refine ⟨s', ?_, hin', ?_⟩
      · rw [runCalls, call_refused e hc, toldOf_refused hc]
        dsimp only
        rw [hrun]
      · rw [hsent, sentBy, sentBy, sending_refused hc]
    · rw [sending_sent hc] at hanswers
      cases hanswers with | cons ha hrest
      rename_i a answers'
      rw [List.map_cons, List.flatten_cons, List.append_assoc] at hin
      obtain ⟨s₁, hcall, hin₁, hsent₁, hw₁⟩ := call_answer e hc ha stack hw hin
      obtain ⟨s', hrun, hin', hsent⟩ := ih answers' hw₁ hrest hin₁
      refine ⟨s', ?_, hin', ?_⟩
      · rw [runCalls, hcall, toldOf_sent hc]
        dsimp only
        rw [hrun]
      · rw [hsent, hsent₁, List.append_assoc, sentBy, sentBy, sending_sent hc, List.map_cons,
          List.flatten_cons]

/-- A `read` of two bytes, a `read` that is refused, and a `close`. -/
theorem calls_in_step_read :
    let calls : List (Command × List Byte) :=
      [(.read 3 2, []), (.read 3 (-1), []), (.close 3, [])]
    let answers : List Answer :=
      [⟨be32 0xBEEF8032 ++ be16 14 ++ be32 2 ++ be32 2, [7, 8]⟩,
        ⟨be32 0xBEEF8022 ++ be16 10 ++ be32 0, []⟩]
    let s : Socket := ⟨[.segment 0xBE (((answers.map Answer.bytes).flatten ++ []).tail.take 14),
      .interrupt, .segment 8 (((answers.map Answer.bytes).flatten ++ []).drop 16)], false, [], []⟩
    ∃ s', runCalls .little calls s = ([(2, [7, 8]), (-1, []), (0, [])], s') ∧ s'.incoming = [] ∧
      s'.sent = [] ++ sentBy .little calls := by
  intro calls answers s
  refine calls_in_step .little calls answers List.not_mem_nil ?_ (by decide)
  refine .cons ?_ (.cons ?_ .nil)
  · exact ⟨by decide, by decide, by decide⟩
  · exact ⟨by decide, rfl⟩

end Ps2netfs

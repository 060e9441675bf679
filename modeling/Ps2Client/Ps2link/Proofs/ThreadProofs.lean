import Mathlib.Data.List.Infix
import Ps2Client.Ps2link.Proofs.ResponsesProofs

/-!
# Proofs: turns of the request thread

A turn takes a header and the rest of the packet off the incoming stream and dispatches on it. What
a handler takes off the stream after that comes from the front as well, so that every turn that does
not end the loop makes the stream shorter, and the loop ends.
-/

namespace Ps2link

open CMemory Network Utility

variable {σ : Type} (h : Host σ) (e : Endian)

/-! ## Receiving -/

theorem receiveAll_enough {s : Client σ} {pre rest : List Byte} (n : Nat)
    (hin : s.sock.incoming = pre ++ rest) (hn : pre.length = n) :
    ∃ a, s.receiveAll n = ((n : Int), pre, s.arrive a) ∧ arrivedBytes a = rest := by
  obtain ⟨a, hrun, ha⟩ := networkReceiveAll_enough n hin hn
  refine ⟨a, ?_, ha⟩
  simp only [Client.receiveAll, hrun]

theorem receiveAll_short {s : Client σ} {n : Nat} (hshort : s.sock.incoming.length < n) :
    ∃ a, s.receiveAll n = (-1, s.sock.incoming, s.arrive a) ∧ arrivedBytes a = [] := by
  obtain ⟨a, hrun, ha⟩ := networkReceiveAll_short hshort
  refine ⟨a, ?_, ha⟩
  simp only [Client.receiveAll, hrun]

/-- Whatever is received comes off the front of the stream. -/
theorem receiveAll_incoming (s : Client σ) (size : Int) :
    ∃ r got a, s.receiveAll size = (r, got, s.arrive a) ∧ s.sock.incoming = got ++ arrivedBytes a := by
  rcases Int.le_total size 0 with hsize | hsize
  · refine ⟨0, [], s.sock.arrivals, ?_, rfl⟩
    simp only [Client.receiveAll, networkReceiveAll_nonpos hsize]
  · obtain ⟨n, rfl⟩ := Int.eq_ofNat_of_zero_le hsize
    rcases Nat.lt_or_ge s.sock.incoming.length n with hlt | hge
    · obtain ⟨a, hrun, ha⟩ := receiveAll_short hlt
      exact ⟨_, _, a, hrun, by rw [ha, List.append_nil]⟩
    · obtain ⟨a, hrun, ha⟩ := receiveAll_enough n (List.take_append_drop n _).symm
        (List.length_take_of_le hge)
      exact ⟨_, _, a, hrun, by rw [ha, List.take_append_drop]⟩

/-! ## One turn -/

theorem load16_header (number : Word) (length : Half) (packet : List Byte) :
    ntohs e (load16 e (poke packet 0 (be32 number ++ be16 length)) 4) = length := by
  rw [ntohs_load16, poke_zero, List.append_assoc]
  exact net16_be16 length (be32_length number)

theorem requestTurn_eq_headerTurn {number : Word} {length : Half} {rest : List Byte}
    {s : Client σ} (hin : s.sock.incoming = be32 number ++ (be16 length ++ rest)) :
    ∃ a, arrivedBytes a = rest ∧ ∀ packet, requestTurn h e packet s =
      headerTurn h e (poke packet 0 (be32 number ++ be16 length)) (s.arrive a) := by
  rw [← List.append_assoc] at hin
  obtain ⟨a, hrun, ha⟩ := receiveAll_enough 6 hin (by simp)
  refine ⟨a, ha, fun packet => ?_⟩
  unfold requestTurn
  rw [show s.receiveAll 6 = _ from hrun]
  exact if_neg (by decide)

/-- A turn on a packet of valid length serves the packet. -/
theorem requestTurn_packet {number : Word} {payload rest : List Byte} {s : Client σ}
    (hlen : payload.length ≤ 512)
    (hin : s.sock.incoming =
      be32 number ++ (be16 (.ofNat 16 (6 + payload.length)) ++ (payload ++ rest))) :
    ∃ a, arrivedBytes a = rest ∧ ∀ packet,
      requestTurn h e packet s = serveTurn h e (inBuffer number payload packet) (s.arrive a) := by
  obtain ⟨a, ha, hturn⟩ := requestTurn_eq_headerTurn h e hin
  obtain ⟨b, hrun, hb⟩ := receiveAll_enough (s := s.arrive a) payload.length ha rfl
  refine ⟨b, hb, fun packet => ?_⟩
  have hlength : (BitVec.ofNat 16 (6 + payload.length)).toNat = 6 + payload.length := by
    rw [BitVec.toNat_ofNat]
    exact Nat.mod_eq_of_lt (by omega)
  have hbuffer : poke (poke packet 0 (be32 number ++ be16 (.ofNat 16 (6 + payload.length)))) 6
      payload = inBuffer number payload packet := by
    rw [poke_zero, poke, inBuffer, List.take_left' (by simp), ← List.drop_drop,
      List.drop_left' (by simp), List.drop_drop]
    simp [Nat.add_comm]
  have hbound : ¬ (6 + payload.length < 6 ∨ 512 < 6 + payload.length - 6) := by omega
  have hsub : 6 + payload.length - 6 = payload.length := by omega
  rw [hturn, headerTurn, load16_header, hlength, if_neg hbound, hsub, bodyTurn, hrun]
  refine (if_neg (by omega)).trans ?_
  rw [hbuffer]

/-- A turn on a header with an invalid length ends the loop. -/
theorem requestTurn_bad {number : Word} {length : Half} {rest : List Byte} (packet : List Byte)
    {s : Client σ} (hlen : length.toNat < 6 ∨ 518 < length.toNat)
    (hin : s.sock.incoming = be32 number ++ (be16 length ++ rest)) :
    ∃ a, arrivedBytes a = rest ∧ requestTurn h e packet s = .stop (s.arrive a) := by
  obtain ⟨a, ha, hturn⟩ := requestTurn_eq_headerTurn h e hin
  refine ⟨a, ha, ?_⟩
  rw [hturn, headerTurn, load16_header, if_pos (by omega)]

/-- A turn on a stream that ends inside a header ends the loop. -/
theorem requestTurn_short (packet : List Byte) {s : Client σ}
    (hshort : s.sock.incoming.length < 6) :
    ∃ a, arrivedBytes a = [] ∧ requestTurn h e packet s = .stop (s.arrive a) := by
  obtain ⟨a, hrun, ha⟩ := receiveAll_short hshort
  refine ⟨a, ha, ?_⟩
  unfold requestTurn
  rw [show s.receiveAll 6 = _ from hrun]
  exact if_pos (by decide)

/-! ## Every turn makes the stream shorter -/

/-- Only a write takes anything off the incoming stream. -/
theorem perform_arrivals (op : Operation) (hop : op.kind ≠ .write) (s : Client σ) :
    (op.perform h e s).2.sock.arrivals = s.sock.arrivals := by
  rcases perform_concludes h e op hop s with hr | ⟨-, -, hsock⟩
  · exact hr.arrivals
  · rw [hsock]

theorem receiveAndWrite_incoming (buffer : List Byte) (fd size : Word) (s : Client σ) :
    (receiveAndWrite h e buffer fd size s).2.sock.incoming <:+ s.sock.incoming := by
  obtain ⟨r, got, a, hrun, hin⟩ := receiveAll_incoming s size.toInt
  have hsuffix : arrivedBytes a <:+ s.sock.incoming := ⟨got, hin.symm⟩
  unfold receiveAndWrite
  rw [hrun]
  dsimp only
  split
  · exact hsuffix
  · refine List.IsSuffix.trans ?_ hsuffix
    rw [Socket.incoming, show (responseWrite e _ _).2.sock.arrivals = _ from send_arrivals ..]

/-- Whatever an operation takes off the incoming stream comes from its front. -/
theorem perform_incoming (op : Operation) (s : Client σ) :
    (op.perform h e s).2.sock.incoming <:+ s.sock.incoming := by
  by_cases hop : op.kind = .write
  · cases op with
    | write fd size =>
      simp only [Operation.perform, performWrite]
      split
      · split
        · exact List.suffix_refl _
        · exact receiveAndWrite_incoming ..
      · exact receiveAndWrite_incoming ..
    | _ => cases hop
  · rw [Socket.incoming, perform_arrivals h e op hop, Socket.incoming]

theorem dispatch_incoming (packet : List Byte) (s : Client σ) :
    (dispatch h e packet s).2.2.sock.incoming <:+ s.sock.incoming := by
  cases hk : Kind.ofNumber (net32 packet 0) with
  | none =>
    rw [dispatch_unknown h e s hk]
  | some k =>
    rw [dispatch_operation h e s (Kind.request_of_ofNumber hk)]
    exact perform_incoming ..

/-- A turn that does not end the loop takes at least a header off the stream. -/
theorem requestTurn_next {packet packet' : List Byte} {s s' : Client σ}
    (hturn : requestTurn h e packet s = .next packet' s') :
    s'.sock.incoming.length + 6 ≤ s.sock.incoming.length := by
  have hserve : ∀ (p : List Byte) (t : Client σ), serveTurn h e p t = .next packet' s' →
      s'.sock.incoming.length ≤ t.sock.incoming.length := by
    intro p t ht
    unfold serveTurn at ht
    dsimp only at ht
    split at ht
    · cases ht
    · cases ht
      exact (dispatch_incoming h e p t).length_le
  have hbody : ∀ (n : Nat) (p : List Byte) (t : Client σ), bodyTurn h e n p t = .next packet' s' →
      s'.sock.incoming.length ≤ t.sock.incoming.length := by
    intro n p t ht
    obtain ⟨r, got, a, hrun, hin⟩ := receiveAll_incoming t n
    unfold bodyTurn at ht
    rw [hrun] at ht
    dsimp only at ht
    split at ht
    · cases ht
    · have hle := hserve _ _ ht
      rw [hin, List.length_append]
      exact Nat.le_trans hle (Nat.le_add_left ..)
  rcases Nat.lt_or_ge s.sock.incoming.length 6 with hlt | hge
  · obtain ⟨a, -, hstop⟩ := requestTurn_short h e packet hlt
    rw [hstop] at hturn
    cases hturn
  · obtain ⟨a, hrun, ha⟩ := receiveAll_enough 6 (List.take_append_drop 6 _).symm
      (List.length_take_of_le hge)
    unfold requestTurn at hturn
    rw [show s.receiveAll 6 = _ from hrun] at hturn
    replace hturn := (if_neg (by decide)).symm.trans hturn
    unfold headerTurn at hturn
    dsimp only at hturn
    split at hturn
    · cases hturn
    · have hle := hbody _ _ _ hturn
      rw [show (s.arrive a).sock.incoming = _ from ha, List.length_drop] at hle
      omega

/-! ## The loop -/

/-- More turns than there are bytes do not change the run. -/
theorem requestLoop_enough : ∀ (fuel : Nat) (packet : List Byte) (s : Client σ),
    s.sock.incoming.length < fuel →
    requestLoop h e fuel packet s = threadRequest h e packet s := by
  intro fuel
  induction fuel using Nat.strong_induction_on with
  | _ fuel ih =>
    intro packet s hfuel
    obtain ⟨fuel, rfl⟩ : ∃ n, fuel = n + 1 := ⟨fuel - 1, by omega⟩
    unfold threadRequest
    rw [requestLoop, requestLoop]
    cases hturn : requestTurn h e packet s with
    | next packet' s' =>
      have hlt := requestTurn_next h e hturn
      dsimp only
      rw [ih fuel (by omega) packet' s' (by omega)]
      by_cases hsame : s.sock.incoming.length = fuel
      · rw [hsame, ih fuel (by omega) packet' s' (by omega)]
      · exact (ih _ (by omega) packet' s' (by omega)).symm
    | stop s' => rfl
    | crash s' => rfl

/-- A turn that does not end the loop is followed by the rest of the run. -/
theorem threadRequest_next {packet packet' : List Byte} {s s' : Client σ}
    (hturn : requestTurn h e packet s = .next packet' s') :
    threadRequest h e packet s = threadRequest h e packet' s' := by
  have hlt := requestTurn_next h e hturn
  conv_lhs => unfold threadRequest
  rw [requestLoop, hturn]
  exact requestLoop_enough h e _ packet' s' (by omega)

theorem threadRequest_stop {packet : List Byte} {s s' : Client σ}
    (hturn : requestTurn h e packet s = .stop s') :
    threadRequest h e packet s = { s' with lost := true } := by
  unfold threadRequest
  rw [requestLoop, hturn]

end Ps2link

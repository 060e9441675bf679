import Ps2Client.Network.Streams
import Ps2Client.Network.Proofs.TransferProofs

/-!
# Proofs: streams

A send that succeeds has put its buffer on the stream, and a receive takes its bytes off the front of
it, so what the receives get is the stream cut by their sizes.
-/

namespace Network

open CMemory

/-! ## One send -/

/-- The loop sends the rest of the buffer, or fails with a part of it that is shorter. -/
theorem sendLoop_exact (buffer : List Byte) (size total : Nat) (s : Socket) (hle : total ≤ size) :
    (sendLoop buffer size total s).1 = size ∧
        (sendLoop buffer size total s).2.sent = s.sent ++ peek buffer total (size - total) ∨
      (sendLoop buffer size total s).1 = -1 ∧ ∃ k, k < size - total ∧
        (sendLoop buffer size total s).2.sent = s.sent ++ peek buffer total k := by
  fun_induction sendLoop buffer size total s with
  | case1 total s hlt n s' h ih =>
    obtain ⟨hn, hnle, o, rfl, -⟩ := send_taken (by simp; omega) h
    rw [peek_length] at hnle
    obtain ⟨hroom, hsplit⟩ : total + n ≤ size ∧ size - total = n + (size - (total + n)) := by
      clear ih
      omega
    have htake : (peek buffer total (size - total)).take n = peek buffer total n := by
      rw [hsplit, peek_add, List.take_left' (peek_length ..)]
    rw [htake] at ih ⊢
    rcases ih hroom with ⟨hresult, hsent⟩ | ⟨hresult, k, hk, hsent⟩
    · left
      refine ⟨hresult, ?_⟩
      rw [hsent, List.append_assoc, ← peek_add, ← hsplit]
    · right
      refine ⟨hresult, n + k, by omega, ?_⟩
      rw [hsent, List.append_assoc, ← peek_add]
  | case2 total s hlt s' h ih =>
    obtain ⟨o, rfl, -, -⟩ := send_interrupted h
    exact ih hle
  | case3 total s hlt s' h =>
    obtain ⟨rfl, -⟩ := send_failed h
    exact Or.inr ⟨rfl, 0, by omega, (List.append_nil _).symm⟩
  | case4 total s hge =>
    left
    have heq : total = size := by omega
    rw [heq, Nat.sub_self]
    exact ⟨rfl, (List.append_nil _).symm⟩

/-- A send has put all of its buffer on the stream, or less than all. -/
theorem sendWhole_cases (s : Socket) (buffer : List Byte) :
    (sendWhole s buffer).1 = buffer.length ∧ (sendWhole s buffer).2.sent = s.sent ++ buffer ∨
      (sendWhole s buffer).1 = -1 ∧ ∃ k, k < buffer.length ∧
        (sendWhole s buffer).2.sent = s.sent ++ buffer.take k := by
  have hloop := sendLoop_exact buffer buffer.length 0 s (Nat.zero_le _)
  rw [Nat.sub_zero, peek_self] at hloop
  rcases hloop with hwhole | ⟨hresult, k, hk, hsent⟩
  · exact Or.inl hwhole
  · right
    refine ⟨hresult, k, hk, ?_⟩
    have htake : peek buffer 0 k = buffer.take k := by
      rw [peek_eq_take_drop (by omega)]
      rfl
    rw [← htake]
    exact hsent

theorem send_exact (s : Socket) (buffer : List Byte) : SendExact s buffer := by
  rcases sendWhole_cases s buffer with ⟨hresult, hsent⟩ | ⟨hresult, k, hk, hsent⟩
  · exact ⟨iff_of_true hresult hsent, fun hne => absurd hresult hne⟩
  · constructor
    · refine iff_of_false (by omega) ?_
      intro hall
      have hlength := congrArg List.length (hsent.symm.trans hall)
      rw [List.length_append, List.length_append, List.length_take] at hlength
      omega
    · intro _
      exact ⟨hresult, buffer.take k, List.take_prefix k buffer, hsent⟩

/-! ## One receive -/

theorem receive_exact (s : Socket) (n : Nat) : ReceiveExact s n := by
  rcases networkReceiveAll_cases s n with ⟨hshort, a, hrun, -⟩ | ⟨hle, a, hrun, hleft⟩
  · have hresult : (networkReceiveAll s n).1 = -1 := congrArg Prod.fst hrun
    constructor
    · refine iff_of_false (by omega) ?_
      intro hwhole
      omega
    · exact iff_of_true hresult hshort
    · exact Or.inr hresult
  · have hresult : (networkReceiveAll s n).1 = n := congrArg Prod.fst hrun
    constructor
    · refine iff_of_true hresult ⟨hle, ?_, ?_⟩
      · rw [hrun]
      · rw [hrun]
        exact hleft
    · exact iff_of_false (by omega) (Nat.not_lt.mpr hle)
    · exact Or.inl hresult

/-! ## Sequences -/

/-- Sends that all succeed have put their buffers on the stream. -/
theorem sends_sent {buffers : List (List Byte)} {s : Socket}
    (hsent : (sends buffers s).1 = buffers.map fun b => (b.length : Int)) :
    (sends buffers s).2.sent = s.sent ++ buffers.flatten := by
  induction buffers generalizing s with
  | nil => exact (List.append_nil _).symm
  | cons buffer buffers ih =>
    obtain ⟨hfirst, hrest⟩ := List.cons.inj hsent
    have hbuffer := (send_exact s buffer).whole.mp hfirst
    have htail : (sends buffers (sendWhole s buffer).2).2.sent =
        (sendWhole s buffer).2.sent ++ buffers.flatten := ih hrest
    rw [hbuffer, List.append_assoc] at htail
    exact htail

theorem carried_eq {buffers : List (List Byte)} {s : Socket}
    (hsent : (sends buffers s).1 = buffers.map fun b => (b.length : Int)) :
    Carried buffers s = buffers.flatten := by
  rw [Carried, sends_sent hsent]
  exact List.drop_left

/-- On a connection that takes everything all sends succeed. -/
theorem sends_writable (buffers : List (List Byte)) {s : Socket} (hw : s.Writable) :
    (sends buffers s).1 = buffers.map fun b => (b.length : Int) := by
  induction buffers generalizing s with
  | nil => rfl
  | cons buffer buffers ih =>
    obtain ⟨s', hrun, -, -, hw'⟩ :=
      networkSend_writable buffer (Int.toNat_natCast buffer.length) hw
    rw [sends, sendWhole, hrun, List.map_cons]
    exact congrArg (_ :: ·) (ih hw')

/-- Receives whose sizes add up to the length of `bytes` get `bytes`. -/
theorem receives_exact {sizes : List Nat} {bytes behind : List Byte} {s : Socket}
    (hin : s.incoming = bytes ++ behind) (hsizes : sizes.sum = bytes.length) :
    (receives sizes s).1.map Prod.fst = sizes.map (fun n : Nat => (n : Int)) ∧
      ((receives sizes s).1.map Prod.snd).flatten = bytes ∧
      (receives sizes s).2.incoming = behind := by
  induction sizes generalizing bytes s with
  | nil =>
    have hnil : bytes = [] := List.length_eq_zero_iff.mp hsizes.symm
    rw [hnil] at hin ⊢
    exact ⟨rfl, rfl, hin⟩
  | cons n sizes ih =>
    rw [List.sum_cons] at hsizes
    have hsplit : s.incoming = bytes.take n ++ (bytes.drop n ++ behind) := by
      rw [hin, ← List.append_assoc, List.take_append_drop]
    have hn : (bytes.take n).length = n := List.length_take_of_le (by omega)
    obtain ⟨a, hrun, hleft⟩ := networkReceiveAll_enough n hsplit hn
    have hrest : sizes.sum = (bytes.drop n).length := by
      rw [List.length_drop]
      omega
    obtain ⟨hresults, hbytes, hbehind⟩ := ih (s := { s with arrivals := a }) hleft hrest
    rw [receives, hrun]
    dsimp only
    refine ⟨?_, ?_, hbehind⟩
    · rw [List.map_cons, List.map_cons, hresults]
    · rw [List.map_cons, List.flatten_cons, hbytes, List.take_append_drop]

/-- Both loops transfer exactly, and whatever the cuts, receives get unchanged what sends have put on
the stream when the sizes add up to the same. -/
theorem stream_transfer :
    (∀ s buffer, SendExact s buffer) ∧ (∀ s n, ReceiveExact s n) ∧
      ∀ (sender receiver : Socket) (buffers : List (List Byte)) (sizes : List Nat)
        (behind : List Byte), (sends buffers sender).1 = buffers.map (fun b => (b.length : Int)) →
        receiver.incoming = Carried buffers sender ++ behind →
        sizes.sum = (buffers.map List.length).sum → Unchanged buffers sizes behind receiver := by
  refine ⟨send_exact, receive_exact, ?_⟩
  intro sender receiver buffers sizes behind hsent hin hsizes
  rw [carried_eq hsent] at hin
  rw [← List.length_flatten] at hsizes
  obtain ⟨hresults, hbytes, hleft⟩ := receives_exact hin hsizes
  exact ⟨hresults, hbytes, hleft⟩

/-- A connection on which the first send is cut and interrupted. -/
def cutSender : Socket := { Socket.receiving [] with outcomes := [.accept 0, .interrupt, .accept 0] }

/-- Two buffers, received in other pieces. -/
theorem stream_transfer_cut : Unchanged [[1, 2], [3]] [1, 2] [] (.receiving [1, 2, 3]) := by
  have hw : cutSender.Writable := by
    unfold Socket.Writable cutSender
    decide
  have hsent := sends_writable [[1, 2], [3]] hw
  refine stream_transfer.2.2 cutSender _ _ _ _ hsent ?_ rfl
  rw [carried_eq hsent, incoming_receiving]
  rfl

end Network

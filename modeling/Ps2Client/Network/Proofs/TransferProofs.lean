import Ps2Client.Network.Transfer

/-!
# Proofs: whole transfers over a stream socket

However the stream is cut, `network_receive_all` takes exactly the bytes asked for off the front of
the incoming stream, or, when there are fewer, all of them. On a socket whose sends do not fail,
`network_send` puts its whole buffer on the outgoing stream.
-/

namespace Network

open CMemory

/-! ## Receiving -/

/-- With enough bytes to come, the loop stores exactly the missing ones. -/
theorem receiveLoop_enough (size : Nat) (stored : List Byte) (s : Socket)
    (hle : stored.length ≤ size) (henough : size - stored.length ≤ s.incoming.length) :
    ∃ a, receiveLoop size stored s =
        ((size : Int), stored ++ s.incoming.take (size - stored.length), { s with arrivals := a }) ∧
      arrivedBytes a = s.incoming.drop (size - stored.length) := by
  fun_induction receiveLoop size stored s with
  | case1 stored s hlt bs s' h ih =>
    obtain ⟨hbs, hbsle, hin, a, rfl, ha⟩ := recvfrom_data (by omega) h
    have hlen : (stored ++ bs).length = stored.length + bs.length := List.length_append
    have hin' := congrArg List.length hin
    rw [List.length_append] at hin'
    obtain ⟨a', hrun, ha'⟩ := ih (by omega) (by omega)
    have hneed : size - stored.length = bs.length + (size - (stored ++ bs).length) := by omega
    refine ⟨a', ?_, ?_⟩
    · rw [hrun, hin, hneed, List.take_length_add_append, List.append_assoc]
    · rw [ha', hin, hneed, List.drop_length_add_append]
  | case2 stored s hlt s' h ih =>
    obtain ⟨hin, a, rfl, ha⟩ := recvfrom_interrupted h
    rw [hin] at henough
    obtain ⟨a', hrun, ha'⟩ := ih hle henough
    exact ⟨a', by rw [hrun, hin], by rw [ha', hin]⟩
  | case3 stored s hlt s' h =>
    obtain ⟨-, hin⟩ := recvfrom_ended (Or.inl rfl) h
    rw [hin, List.length_nil] at henough
    omega
  | case4 stored s hlt s' h =>
    obtain ⟨-, hin⟩ := recvfrom_ended (Or.inr rfl) h
    rw [hin, List.length_nil] at henough
    omega
  | case5 stored s hge =>
    have hsize : stored.length = size := by omega
    refine ⟨s.arrivals, ?_, ?_⟩
    · simp [hsize]
    · simp [hsize, Socket.incoming]

/-- With too few bytes to come, the loop takes them all and fails. -/
theorem receiveLoop_short (size : Nat) (stored : List Byte) (s : Socket)
    (hshort : s.incoming.length < size - stored.length) :
    ∃ a, receiveLoop size stored s = (-1, stored ++ s.incoming, { s with arrivals := a }) ∧
      arrivedBytes a = [] := by
  fun_induction receiveLoop size stored s with
  | case1 stored s hlt bs s' h ih =>
    obtain ⟨hbs, hbsle, hin, a, rfl, ha⟩ := recvfrom_data (by omega) h
    have hlen : (stored ++ bs).length = stored.length + bs.length := List.length_append
    have hin' := congrArg List.length hin
    rw [List.length_append] at hin'
    obtain ⟨a', hrun, ha'⟩ := ih (by omega)
    exact ⟨a', by rw [hrun, hin, List.append_assoc], ha'⟩
  | case2 stored s hlt s' h ih =>
    obtain ⟨hin, a, rfl, ha⟩ := recvfrom_interrupted h
    rw [hin] at hshort
    obtain ⟨a', hrun, ha'⟩ := ih hshort
    exact ⟨a', by rw [hrun, hin], ha'⟩
  | case3 stored s hlt s' h =>
    obtain ⟨rfl, hin⟩ := recvfrom_ended (Or.inl rfl) h
    exact ⟨s'.arrivals, by rw [hin, List.append_nil], hin⟩
  | case4 stored s hlt s' h =>
    obtain ⟨rfl, hin⟩ := recvfrom_ended (Or.inr rfl) h
    exact ⟨s'.arrivals, by rw [hin, List.append_nil], hin⟩
  | case5 stored s hge => omega

/-- `network_receive_all` of `n` bytes that do come in. -/
theorem networkReceiveAll_enough {s : Socket} {pre rest : List Byte} (n : Nat)
    (hin : s.incoming = pre ++ rest) (hn : pre.length = n) :
    ∃ a, networkReceiveAll s n = ((n : Int), pre, { s with arrivals := a }) ∧ arrivedBytes a = rest := by
  obtain ⟨a, hrun, ha⟩ := receiveLoop_enough n [] s (by simp) (by simp [hin, ← hn])
  rw [hin, List.length_nil, Nat.sub_zero, ← hn] at hrun ha
  rw [List.take_left, List.nil_append] at hrun
  rw [List.drop_left] at ha
  rw [hn] at hrun
  exact ⟨a, hrun, ha⟩

/-- `network_receive_all` of more bytes than come in. -/
theorem networkReceiveAll_short {s : Socket} {n : Nat} (hshort : s.incoming.length < n) :
    ∃ a, networkReceiveAll s n = (-1, s.incoming, { s with arrivals := a }) ∧
      arrivedBytes a = [] := by
  obtain ⟨a, hrun, ha⟩ := receiveLoop_short n [] s (by simpa using hshort)
  exact ⟨a, by simpa [networkReceiveAll] using hrun, ha⟩

/-- A size that is not positive receives nothing and succeeds. -/
theorem networkReceiveAll_nonpos {s : Socket} {size : Int} (h : size ≤ 0) :
    networkReceiveAll s size = (0, [], s) := by
  rw [networkReceiveAll, receiveLoop]
  simp [Int.toNat_of_nonpos h]

/-- A function that returns -1 has failed. -/
theorem minus_one_failed {P : Prop} (hok : ¬ (-1 : Int) < 0) : P := absurd (by decide) hok

/-- Either not enough comes in, or enough does. -/
theorem networkReceiveAll_cases (s : Socket) (n : Nat) :
    (s.incoming.length < n ∧ ∃ a,
      networkReceiveAll s n = (-1, s.incoming, { s with arrivals := a }) ∧ arrivedBytes a = []) ∨
    (n ≤ s.incoming.length ∧ ∃ a,
      networkReceiveAll s n = ((n : Int), s.incoming.take n, { s with arrivals := a }) ∧
        arrivedBytes a = s.incoming.drop n) := by
  by_cases hshort : s.incoming.length < n
  · exact Or.inl ⟨hshort, networkReceiveAll_short hshort⟩
  · have hle : n ≤ s.incoming.length := Nat.le_of_not_lt hshort
    have hsplit := (List.take_append_drop n s.incoming).symm
    exact Or.inr ⟨hle, networkReceiveAll_enough n hsplit (List.length_take_of_le hle)⟩

theorem networkReceiveAll_toNat (s : Socket) (size : Int) :
    networkReceiveAll s size.toNat = networkReceiveAll s size := by
  rw [networkReceiveAll, networkReceiveAll, Int.toNat_natCast]

/-- `network_receive_all` stores at most as many bytes as it is asked for, and all of them unless it
fails. -/
theorem networkReceiveAll_stored (s : Socket) (size : Int) :
    (networkReceiveAll s size).2.1.length ≤ size.toNat ∧
      (¬ (networkReceiveAll s size).1 < 0 →
        (networkReceiveAll s size).2.1.length = size.toNat) := by
  rw [← networkReceiveAll_toNat]
  rcases networkReceiveAll_cases s size.toNat with ⟨hshort, a, hrun, -⟩ | ⟨hle, a, hrun, -⟩
  · rw [hrun]
    exact ⟨Nat.le_of_lt hshort, minus_one_failed⟩
  · rw [hrun]
    have hlength := List.length_take_of_le hle
    exact ⟨Nat.le_of_eq hlength, fun _ => hlength⟩

/-- Bytes come off the front of the stream, and unless `network_receive_all` fails as many as it was
asked for. -/
theorem networkReceiveAll_incoming (s : Socket) (size : Int) :
    ∃ pre, s.incoming = pre ++ (networkReceiveAll s size).2.2.incoming ∧
      (¬ (networkReceiveAll s size).1 < 0 → pre.length = size.toNat) := by
  rw [← networkReceiveAll_toNat]
  rcases networkReceiveAll_cases s size.toNat with ⟨-, a, hrun, ha⟩ | ⟨hle, a, hrun, ha⟩
  · rw [hrun]
    refine ⟨s.incoming, ?_, minus_one_failed⟩
    show s.incoming = s.incoming ++ arrivedBytes a
    rw [ha, List.append_nil]
  · rw [hrun]
    refine ⟨s.incoming.take size.toNat, ?_, fun _ => List.length_take_of_le hle⟩
    show s.incoming = s.incoming.take size.toNat ++ arrivedBytes a
    rw [ha, List.take_append_drop]

/-- Receiving touches the incoming side only. -/
theorem receiveLoop_socket (size : Nat) (stored : List Byte) (s : Socket) :
    ∃ a, (receiveLoop size stored s).2.2 = { s with arrivals := a } := by
  fun_induction receiveLoop size stored s with
  | case1 stored s hlt bs s' h ih =>
    obtain ⟨-, -, -, a, rfl, -⟩ := recvfrom_data (by omega) h
    exact ih
  | case2 stored s hlt s' h ih =>
    obtain ⟨-, a, rfl, -⟩ := recvfrom_interrupted h
    exact ih
  | case3 stored s hlt s' h =>
    obtain ⟨rfl, -⟩ := recvfrom_ended (Or.inl rfl) h
    exact ⟨s'.arrivals, rfl⟩
  | case4 stored s hlt s' h =>
    obtain ⟨rfl, -⟩ := recvfrom_ended (Or.inr rfl) h
    exact ⟨s'.arrivals, rfl⟩
  | case5 stored s hge => exact ⟨s.arrivals, rfl⟩

theorem networkReceiveAll_socket (s : Socket) (size : Int) :
    ∃ a, (networkReceiveAll s size).2.2 = { s with arrivals := a } :=
  receiveLoop_socket size.toNat [] s

/-! ## Sending -/

/-- The outgoing stream of `s'` is that of `s` with `bs` put on it, as far as the connection held. -/
structure Emitted (s s' : Socket) (bs : List Byte) : Prop where
  sent : ∃ t, s'.sent = s.sent ++ t ∧ t <+: bs ∧ (t = bs ∨ s'.Dead)
  dead : s.Dead → s'.sent = s.sent ∧ s'.Dead
  outcomes : s'.outcomes <:+ s.outcomes

theorem Emitted.refl (s : Socket) : Emitted s s [] where
  sent := ⟨[], by simp, List.prefix_refl _, .inl rfl⟩
  dead hd := ⟨rfl, hd⟩
  outcomes := List.suffix_refl _

/-- Nothing goes out on a dead socket. -/
theorem Emitted.of_dead {s : Socket} (hd : s.Dead) (bs : List Byte) : Emitted s s bs where
  sent := ⟨[], (List.append_nil _).symm, List.nil_prefix, .inr hd⟩
  dead _ := ⟨rfl, hd⟩
  outcomes := List.suffix_refl _

theorem Emitted.arrivals {s s' : Socket} {bs : List Byte} (h : Emitted s s' bs)
    (a : List Arrival) : Emitted s { s' with arrivals := a } bs :=
  ⟨h.sent, h.dead, h.outcomes⟩

theorem Emitted.trans {s s' s'' : Socket} {a b : List Byte} (h : Emitted s s' a)
    (h' : Emitted s' s'' b) : Emitted s s'' (a ++ b) where
  sent := by
    obtain ⟨t, ht, hpre, heq | hdead⟩ := h.sent
    · obtain ⟨u, hu, hpre', hend⟩ := h'.sent
      subst heq
      refine ⟨t ++ u, by rw [hu, ht, List.append_assoc], ?_, ?_⟩
      · exact (List.prefix_append_right_inj t).mpr hpre'
      · exact hend.imp (congrArg _) id
    · obtain ⟨hsame, hdead'⟩ := h'.dead hdead
      exact ⟨t, by rw [hsame, ht], hpre.trans (List.prefix_append ..), .inr hdead'⟩
  dead hd := by
    obtain ⟨hsame, hdead⟩ := h.dead hd
    obtain ⟨hsame', hdead'⟩ := h'.dead hdead
    exact ⟨hsame'.trans hsame, hdead'⟩
  outcomes := h'.outcomes.trans h.outcomes

/-- On a socket whose sends do not fail everything is sent. -/
theorem Emitted.sent_writable {s s' : Socket} {bs : List Byte} (h : Emitted s s' bs)
    (hw : s.Writable) : s'.sent = s.sent ++ bs := by
  obtain ⟨t, ht, -, heq | hdead⟩ := h.sent
  · rw [ht, heq]
  · exact absurd (h.outcomes.subset (List.mem_of_mem_head? hdead)) hw

/-- The loop sends the rest of the buffer. -/
theorem sendLoop_emitted (buffer : List Byte) (size total : Nat) (s : Socket) (hle : total ≤ size) :
    Emitted s (sendLoop buffer size total s).2 (peek buffer total (size - total)) := by
  fun_induction sendLoop buffer size total s with
  | case1 total s hlt n s' h ih =>
    obtain ⟨hn, hnle, o, rfl, ho⟩ := send_taken (by simp; omega) h
    rw [peek_length] at hnle
    have hsplit : size - total = n + (size - (total + n)) := by omega
    have htake : (peek buffer total (size - total)).take n = peek buffer total n := by
      rw [hsplit, peek_add, List.take_left' (peek_length ..)]
    have hfirst : Emitted s { s with outcomes := o, sent := s.sent ++ peek buffer total n }
        (peek buffer total n) := by
      refine ⟨⟨_, rfl, List.prefix_refl _, .inl rfl⟩, ?_, ho⟩
      intro hd
      rw [send_dead hd] at h
      cases h
    rw [htake] at ih ⊢
    rw [hsplit, peek_add]
    exact hfirst.trans (ih (by omega))
  | case2 total s hlt s' h ih =>
    obtain ⟨o, rfl, ho, -⟩ := send_interrupted h
    have hfirst : Emitted s { s with outcomes := o } [] := by
      refine ⟨⟨[], by simp, List.prefix_refl _, .inl rfl⟩, ?_, ho⟩
      intro hd
      rw [send_dead hd] at h
      cases h
    exact hfirst.trans (ih hle)
  | case3 total s hlt s' h =>
    obtain ⟨rfl, hd⟩ := send_failed h
    exact ⟨⟨[], by simp, List.nil_prefix, .inr hd⟩, fun _ => ⟨rfl, hd⟩, List.suffix_refl _⟩
  | case4 total s hge =>
    rw [Nat.sub_eq_zero_of_le (Nat.le_of_not_lt hge)]
    exact Emitted.refl s

/-- `network_send` of the first `n` bytes of a buffer. -/
theorem networkSend_emitted (s : Socket) (buffer : List Byte) {size : Int} {n : Nat}
    (hn : size.toNat = n) : Emitted s (networkSend s buffer size).2 (peek buffer 0 n) := by
  rw [networkSend, hn]
  exact sendLoop_emitted buffer n 0 s (Nat.zero_le _)

/-- Sending touches the outgoing side only. -/
theorem sendLoop_arrivals (buffer : List Byte) (size total : Nat) (s : Socket) :
    (sendLoop buffer size total s).2.arrivals = s.arrivals := by
  fun_induction sendLoop buffer size total s with
  | case1 total s hlt n s' h ih =>
    obtain ⟨-, -, o, rfl, -⟩ := send_taken (by simp; omega) h
    exact ih
  | case2 total s hlt s' h ih =>
    obtain ⟨o, rfl, -, -⟩ := send_interrupted h
    exact ih
  | case3 total s hlt s' h =>
    obtain ⟨rfl, -⟩ := send_failed h
    rfl
  | case4 total s hge => rfl

theorem networkSend_arrivals (s : Socket) (buffer : List Byte) (size : Int) :
    (networkSend s buffer size).2.arrivals = s.arrivals :=
  sendLoop_arrivals buffer size.toNat 0 s

theorem networkSend_incoming (s : Socket) (buffer : List Byte) (size : Int) :
    (networkSend s buffer size).2.incoming = s.incoming :=
  congrArg arrivedBytes (networkSend_arrivals s buffer size)

/-- The loop returns the size, unless a send has failed. -/
theorem sendLoop_result (buffer : List Byte) (size total : Nat) (s : Socket) (hle : total ≤ size) :
    (sendLoop buffer size total s).1 = size ∨
      (sendLoop buffer size total s).1 = -1 ∧ (sendLoop buffer size total s).2.Dead := by
  fun_induction sendLoop buffer size total s with
  | case1 total s hlt n s' h ih =>
    obtain ⟨-, hn, -⟩ := send_taken (by simp; omega) h
    rw [peek_length] at hn
    exact ih (by omega)
  | case2 total s hlt s' h ih => exact ih hle
  | case3 total s hlt s' h =>
    obtain ⟨rfl, hd⟩ := send_failed h
    exact .inr ⟨rfl, hd⟩
  | case4 total s hge =>
    left
    show (total : Int) = size
    omega

theorem networkSend_failed {s : Socket} {buffer : List Byte} {size : Int}
    (h : (networkSend s buffer size).1 < 0) : (networkSend s buffer size).2.Dead := by
  rcases sendLoop_result buffer size.toNat 0 s (Nat.zero_le _) with hok | ⟨-, hdead⟩
  · rw [networkSend, hok] at h
    omega
  · exact hdead

/-- `network_send` on a connection that takes everything. -/
theorem networkSend_writable {s : Socket} (buffer : List Byte) {size : Int} {n : Nat}
    (hn : size.toNat = n) (hw : s.Writable) :
    ∃ s', networkSend s buffer size = ((n : Int), s') ∧ s'.sent = s.sent ++ peek buffer 0 n ∧
      s'.incoming = s.incoming ∧ s'.Writable := by
  have hemitted := networkSend_emitted s buffer hn
  have hresult := sendLoop_result buffer size.toNat 0 s (Nat.zero_le _)
  rw [← networkSend, hn] at hresult
  have hw' : (networkSend s buffer size).2.Writable := fun hfail =>
    hw (hemitted.outcomes.subset hfail)
  rcases hresult with hok | ⟨-, hdead⟩
  · refine ⟨(networkSend s buffer size).2, Prod.ext hok rfl, hemitted.sent_writable hw, ?_, hw'⟩
    exact congrArg arrivedBytes (networkSend_arrivals s buffer size)
  · exact absurd (List.mem_of_mem_head? hdead) hw'

end Network

import Ps2Client.Ps2link.Proofs.FramingProofs

/-!
# Proofs: write requests of any size

The size of a write is unsigned where it is compared and written, and signed where the data are
received; and the thread goes on after a handler that has failed.
-/

namespace Ps2link

open CMemory Network Utility

variable {σ : Type} (h : Host σ) (e : Endian)

/-! ## The body of the handler -/

/-- The stream ends before all data have come in. -/
theorem receiveAndWrite_short (buffer : List Byte) (fd : Word) {size : Word} {s : Client σ}
    (hshort : s.sock.incoming.length < size.toNat) (hsize : size.toNat < 2 ^ 31) :
    ∃ a, arrivedBytes a = [] ∧ receiveAndWrite h e buffer fd size s = (-1, s.arrive a) := by
  have hint : size.toInt = (size.toNat : Int) := BitVec.toInt_eq_toNat_of_lt (by omega)
  obtain ⟨a, hrun, ha⟩ := receiveAll_short hshort
  refine ⟨a, ha, ?_⟩
  unfold receiveAndWrite
  rw [hint, hrun]
  exact if_pos (by decide)

/-- A size that is negative as an `int` receives nothing, and the buffer is written as it is. -/
theorem receiveAndWrite_negative (buffer : List Byte) (fd : Word) {size : Word} (s : Client σ)
    (hsize : 2 ^ 31 ≤ size.toNat) :
    receiveAndWrite h e buffer fd size s =
      (0, (responseWrite e
        (toInt32 (s.call h (.write fd.toInt (peek (poke buffer 0 []) 0 size.toNat))).1)
        (s.call h (.write fd.toInt (peek (poke buffer 0 []) 0 size.toNat))).2).2) := by
  have hint : size.toInt ≤ 0 := by
    have := BitVec.toInt_eq_toNat_cond size
    have := size.isLt
    omega
  have hrun : s.receiveAll size.toInt = (0, [], s) := by
    simp only [Client.receiveAll, networkReceiveAll_nonpos hint]
  unfold receiveAndWrite
  rw [hrun]
  exact if_neg (by decide)

/-- What the handler does with a buffer, when the size fits an `int`. -/
theorem receiveAndWrite_handled (buffer : List Byte) (fd : Word) {size : Word} (s : Client σ)
    (hsize : size.toNat < 2 ^ 31) :
    let s' := (receiveAndWrite h e buffer fd size s).2
    (size.toNat ≤ s.sock.incoming.length ∧
      s'.sock.incoming = s.sock.incoming.drop size.toNat ∧
      s'.calls = s.calls ++ [.write fd.toInt (s.sock.incoming.take size.toNat)] ∧
      ∃ bs, IsResponse .write bs ∧ Emitted s.sock s'.sock bs) ∨
    (s'.sock.incoming = [] ∧ s'.calls = s.calls ∧ s'.sock.sent = s.sock.sent) := by
  rcases Nat.lt_or_ge s.sock.incoming.length size.toNat with hlt | hge
  · obtain ⟨a, ha, hrun⟩ := receiveAndWrite_short h e buffer fd hlt hsize
    rw [hrun]
    exact .inr ⟨ha, rfl, rfl⟩
  · obtain ⟨a, ha, hrun⟩ := receiveAndWrite_enough h e buffer fd
      (List.take_append_drop size.toNat _).symm (List.length_take_of_le hge) hsize
    have hans : Answered .write (arrivedBytes a) s (receiveAndWrite h e buffer fd size s).2 := by
      rw [hrun]
      exact Responds.answered (responseResult_responds e .write rfl rfl rfl rfl)
    refine .inl ⟨hge, hans.incoming.trans ha, ?_, hans.emitted⟩
    rw [hrun]
    rfl

theorem receiveAndWrite_calls (buffer : List Byte) (fd : Word) {size : Word} (s : Client σ)
    (hsize : size.toNat < 2 ^ 31) :
    (receiveAndWrite h e buffer fd size s).2.calls = s.calls ++
      if size.toNat ≤ s.sock.incoming.length
      then [.write fd.toInt (s.sock.incoming.take size.toNat)] else [] := by
  rcases Nat.lt_or_ge s.sock.incoming.length size.toNat with hlt | hge
  · obtain ⟨a, -, hrun⟩ := receiveAndWrite_short h e buffer fd hlt hsize
    rw [hrun, if_neg (by omega), List.append_nil]
  · obtain ⟨a, -, hrun⟩ := receiveAndWrite_enough h e buffer fd
      (List.take_append_drop size.toNat _).symm (List.length_take_of_le hge) hsize
    rw [hrun, if_pos hge]
    rfl

/-! ## The handler -/

theorem receiveAndWrite_crashed (buffer : List Byte) (fd size : Word) (s : Client σ) :
    (receiveAndWrite h e buffer fd size s).2.crashed = s.crashed := by
  unfold receiveAndWrite
  dsimp only
  split <;> rfl

theorem performWrite_crashed (fd size : Word) (s : Client σ) :
    (performWrite h e fd size s).2.crashed = s.crashed := by
  unfold performWrite
  dsimp only
  split
  · split
    · rfl
    · exact receiveAndWrite_crashed ..
  · exact receiveAndWrite_crashed ..

/-- The turn on a write calls the handler with the fields of the packet. -/
theorem requestTurn_write (payload rest packet : List Byte) {s : Client σ}
    (hlen : 8 ≤ payload.length ∧ payload.length ≤ 512) (hlive : s.crashed = false)
    (hin : s.sock.incoming = be32 REQUEST_WRITE ++
      (be16 (.ofNat 16 (6 + payload.length)) ++ (payload ++ rest))) :
    ∃ a packet', arrivedBytes a = rest ∧ requestTurn h e packet s = .next packet'
      (setActivity h
        (performWrite h e (net32 payload 0) (net32 payload 4) (s.arrive a)).2) := by
  have hop : Kind.write.decode e (inBuffer REQUEST_WRITE payload packet) =
      .write (net32 payload 0) (net32 payload 4) := by
    rw [← net32_inBuffer REQUEST_WRITE packet 0 (by omega),
      ← net32_inBuffer REQUEST_WRITE packet 4 (by omega)]
    rfl
  obtain ⟨a, ha, hturn⟩ := requestTurn_operation h e rfl hlen.2 hop hin
  obtain ⟨packet', hturn⟩ := hturn ((performWrite_crashed ..).trans hlive)
  exact ⟨a, packet', ha, hturn⟩

/-- When the handler has a buffer and the size fits an `int`, the write is served, or the stream
has ended. -/
theorem writeHandled_of_buffer {packet packet' rest : List Byte} {fd size : Word}
    {s s₁ : Client σ} {a : List Arrival} {buffer : List Byte} (ha : arrivedBytes a = rest)
    (hsock : s₁.sock = { s.sock with arrivals := a })
    (hcalls : ∃ calls, s₁.calls = s.calls ++ calls ∧ hostWrites calls = [])
    (hsize : size.toNat < 2 ^ 31)
    (hturn : requestTurn h e packet s =
      .next packet' (setActivity h (receiveAndWrite h e buffer fd size s₁).2)) :
    WriteHandled h e fd size rest packet s := by
  obtain ⟨calls, hcalls, hwrites⟩ := hcalls
  have hin : s₁.sock.incoming = rest := by
    rw [hsock]
    exact ha
  refine ⟨_, _, hturn, ?_⟩
  rcases receiveAndWrite_handled h e buffer fd s₁ hsize with
    ⟨hle, hrest, hwrite, bs, hbs, hsent⟩ | ⟨hrest, hwrite, hsent⟩
  · rw [hin] at hle hrest hwrite
    left
    refine ⟨hle, hrest, ⟨calls ++ [.write fd.toInt (rest.take size.toNat)], ?_, ?_⟩, ?_⟩
    · rw [← List.append_assoc, ← hcalls]
      exact hwrite
    · rw [hostWrites, List.filterMap_append, ← hostWrites, hwrites]
      rfl
    · rw [hsock] at hsent
      have hsent' : Emitted s.sock (receiveAndWrite h e buffer fd size s₁).2.sock bs :=
        ⟨hsent.sent, hsent.dead, hsent.outcomes⟩
      obtain ⟨t, ht, hpre, -⟩ := hsent'.sent
      refine ⟨bs, t, hbs, ht, hpre, fun hw => ?_⟩
      have hall := hsent'.sent_writable hw
      rw [ht] at hall
      exact List.append_cancel_left hall
  · right
    obtain ⟨a', -, hstop⟩ := requestTurn_short h e packet'
      (s := setActivity h (receiveAndWrite h e buffer fd size s₁).2) (by
        show (receiveAndWrite h e buffer fd size s₁).2.sock.incoming.length < 6
        rw [hrest]
        decide)
    refine ⟨⟨calls, hwrite.trans hcalls, hwrites⟩, hsent.trans (by rw [hsock]), ?_, a',
      threadRequest_stop h e hstop⟩
    show (receiveAndWrite h e buffer fd size s₁).2.sock.incoming.length < 6
    rw [hrest]
    decide

theorem not_writeServed {fd size : Word} {rest : List Byte} {s s' : Client σ}
    (hsize : 0 < size.toNat) (hin : s'.sock.incoming = rest) : ¬ WriteServed fd size rest s s' := by
  rintro ⟨hle, hrest, -⟩
  have hlen := congrArg List.length (hin.symm.trans hrest)
  rw [List.length_drop] at hlen
  omega

/-- When there is no buffer, the data stay on the stream. -/
theorem writeHandled_no_buffer {packet packet' rest : List Byte} {fd size : Word}
    {s s₁ : Client σ} (hsize : 0 < size.toNat) (hin : s₁.sock.incoming = rest)
    (hsent : s₁.sock.sent = s.sock.sent)
    (hcalls : ∃ calls, s₁.calls = s.calls ++ calls ∧ hostWrites calls = [])
    (hturn : requestTurn h e packet s = .next packet' s₁) :
    WriteHandled h e fd size rest packet s ↔ rest.length < 6 := by
  constructor
  · rintro ⟨packet'', s', hturn', hserved | ⟨-, -, hlt, -⟩⟩
    · cases hturn.symm.trans hturn'
      exact absurd hserved (not_writeServed hsize hin)
    · cases hturn.symm.trans hturn'
      rwa [hin] at hlt
  · intro hlt
    rw [← hin] at hlt
    obtain ⟨a, -, hstop⟩ := requestTurn_short h e packet' hlt
    exact ⟨packet', s₁, hturn, .inr ⟨hcalls, hsent, hlt, a, threadRequest_stop h e hstop⟩⟩

/-- When the size is negative as an `int`, the handler writes what was in its buffer. -/
theorem not_writeHandled_negative {packet packet' rest : List Byte} {fd size : Word}
    {s s₁ : Client σ} {buffer : List Byte} (hsize : 2 ^ 31 ≤ size.toNat)
    (hin : s₁.sock.incoming = rest) (hcalls : ∃ calls, s₁.calls = s.calls ++ calls)
    (hturn : requestTurn h e packet s =
      .next packet' (setActivity h (receiveAndWrite h e buffer fd size s₁).2)) :
    ¬ WriteHandled h e fd size rest packet s := by
  obtain ⟨calls₁, hcalls₁⟩ := hcalls
  have hrun := receiveAndWrite_negative h e buffer fd s₁ hsize
  rw [hrun] at hturn
  rintro ⟨packet'', s', hturn', hserved | ⟨⟨calls, hcalls', hnone⟩, -⟩⟩
  · cases hturn.symm.trans hturn'
    refine absurd hserved (not_writeServed (by omega) ?_)
    rw [← hin]
    exact congrArg arrivedBytes (send_arrivals ..)
  · cases hturn.symm.trans hturn'
    have hall : s₁.calls ++ [.write fd.toInt (peek (poke buffer 0 []) 0 size.toNat)] =
        s.calls ++ calls := hcalls'
    rw [hcalls₁, List.append_assoc] at hall
    rw [← List.append_cancel_left hall, hostWrites, List.filterMap_append] at hnone
    cases (List.append_eq_nil_iff.mp hnone).2

/-- Exactly when the handler can serve a write, or nothing is left to be taken for a header, the
turn on it serves it or ends the connection. -/
theorem write_handled_iff (payload rest packet : List Byte) {s : Client σ}
    (hlen : 8 ≤ payload.length ∧ payload.length ≤ 512) (hlive : s.crashed = false)
    (hin : s.sock.incoming = be32 REQUEST_WRITE ++
      (be16 (.ofNat 16 (6 + payload.length)) ++ (payload ++ rest))) :
    WriteHandled h e (net32 payload 0) (net32 payload 4) rest packet s ↔
      WriteServable h (net32 payload 4) rest s := by
  obtain ⟨a, packet', ha, hturn⟩ := requestTurn_write h e payload rest packet hlen hlive hin
  unfold performWrite at hturn
  unfold WriteServable
  by_cases hbig : 65536 < (net32 payload 4).toNat
  · have hsmall : ¬ (net32 payload 4).toNat ≤ 65536 := by omega
    rw [if_pos hbig] at hturn
    rw [or_iff_right hsmall]
    dsimp only at hturn
    cases hm : (h.call (.malloc (net32 payload 4).toNat) s.host).1 with
    | none =>
      rw [hm] at hturn
      refine writeHandled_no_buffer h e (by omega) ?_ ?_ ?_ hturn
      · exact ha
      · rfl
      · exact ⟨_, rfl, rfl⟩
    | some block =>
      rw [hm] at hturn
      dsimp only at hturn ⊢
      by_cases hint : (net32 payload 4).toNat < 2 ^ 31
      · refine iff_of_true (writeHandled_of_buffer h e ha ?_ ?_ hint hturn) hint
        · rfl
        · exact ⟨_, rfl, rfl⟩
      · refine iff_of_false (not_writeHandled_negative h e (by omega) ?_ ?_ hturn) hint
        · exact ha
        · exact ⟨_, rfl⟩
  · rw [if_neg hbig] at hturn
    dsimp only at hturn
    refine iff_of_true (writeHandled_of_buffer h e ha ?_ ?_ (by omega) hturn) (.inl (by omega))
    · rfl
    · exact ⟨[], (List.append_nil _).symm, rfl⟩

/-- A write of three bytes of which all have come in. -/
theorem write_handled_small :
    let payload : List Byte := be32 3 ++ be32 3
    let s : Client Unit := .initial () (.receiving (be32 REQUEST_WRITE ++ (be16 14 ++
      (payload ++ [7, 8, 9]))))
    WriteHandled failingHost .little 3 3 [7, 8, 9] [] s ↔ WriteServable failingHost 3 [7, 8, 9] s :=
  write_handled_iff failingHost .little (be32 3 ++ be32 3) [7, 8, 9] [] (by decide) rfl
    (incoming_receiving _)

/-- A write that gets no buffer, with data that look like a request to close a file. -/
theorem not_writeHandled_no_memory :
    let payload : List Byte := be32 3 ++ be32 65537
    let data : List Byte := be32 REQUEST_CLOSE ++ (be16 10 ++ be32 3)
    let s : Client Unit := .initial () (.receiving (be32 REQUEST_WRITE ++ (be16 14 ++
      (payload ++ data))))
    ¬ WriteHandled failingHost .little 3 65537 data [] s := by
  intro payload data s
  obtain ⟨a, packet', ha, hturn⟩ := requestTurn_write (s := s) failingHost .little payload data []
    (by decide) rfl (incoming_receiving _)
  have hsize : net32 payload 4 = 65537 := by decide
  unfold performWrite at hturn
  rw [hsize, if_pos (by decide)] at hturn
  intro hhandled
  have hshort : data.length < 6 := by
    refine (writeHandled_no_buffer failingHost .little (by decide) ?_ ?_ ?_ hturn).mp hhandled
    · exact ha
    · rfl
    · exact ⟨_, rfl, rfl⟩
  exact absurd hshort (by decide)

end Ps2link

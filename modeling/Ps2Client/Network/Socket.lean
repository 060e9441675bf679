import Ps2Client.CMemory.Proofs.BytesProofs

/-!
# Stream sockets

The two system calls the clients use on a connected TCP socket. What the peer sends arrives as a
sequence of non-empty segments, cut anywhere, and a receive can be interrupted by a signal; what
the kernel makes of each send is a sequence of outcomes. Both sequences are arbitrary, so they
stand for every way TCP can split the two byte streams.

A stream that has ended stays ended, and after a failed send every later one fails.
-/

namespace Network

open CMemory

/-- What the next `recv` on a connection meets. A segment has at least one byte. -/
inductive Arrival where
  | segment (first : Byte) (more : List Byte)
  | interrupt
  deriving DecidableEq, Repr

/-- What the kernel does with a `send`: take the first `k + 1` bytes (or all, if there are fewer),
be interrupted by a signal, or fail. -/
inductive Outcome where
  | accept (k : Nat)
  | interrupt
  | fail
  deriving DecidableEq, Repr

/-- A connected stream socket. -/
structure Socket where
  /-- What is still to come in. -/
  arrivals : List Arrival
  /-- The incoming stream ends by a failure of the connection, not by an orderly close. -/
  broken : Bool
  /-- The outcomes of the next sends; when they are used up, a send takes everything. -/
  outcomes : List Outcome
  /-- The bytes put on the outgoing stream so far. -/
  sent : List Byte
  deriving DecidableEq, Repr

/-- The bytes of a list of arrivals. -/
def arrivedBytes : List Arrival → List Byte
  | [] => []
  | .segment b bs :: rest => b :: bs ++ arrivedBytes rest
  | .interrupt :: rest => arrivedBytes rest

/-- The bytes that are still to come in. -/
def Socket.incoming (s : Socket) : List Byte := arrivedBytes s.arrivals

/-- No send on this socket fails. -/
def Socket.Writable (s : Socket) : Prop := Outcome.fail ∉ s.outcomes

/-- The next send on this socket fails, and so does every later one. -/
def Socket.Dead (s : Socket) : Prop := s.outcomes.head? = some .fail

/-- The result of `recv`: data, end of stream (0), or an error with or without `EINTR`. -/
inductive Received where
  | data (bs : List Byte)
  | closed
  | interrupted
  | failed
  deriving DecidableEq, Repr

/-- `recvfrom(sock, …, size, 0, NULL, NULL)` for `size > 0`: at most `size` bytes of the next
segment, of which the rest is kept for the next call. -/
def recvfrom (s : Socket) (size : Nat) : Received × Socket :=
  match s.arrivals with
  | [] => (if s.broken then .failed else .closed, s)
  | .interrupt :: rest => (.interrupted, { s with arrivals := rest })
  | .segment b bs :: rest =>
    match (b :: bs).drop size with
    | [] => (.data (b :: bs), { s with arrivals := rest })
    | c :: cs => (.data ((b :: bs).take size), { s with arrivals := .segment c cs :: rest })

/-- The result of `send`: the number of bytes taken, or an error with or without `EINTR`. -/
inductive Sent where
  | taken (n : Nat)
  | interrupted
  | failed
  deriving DecidableEq, Repr

/-- `send(sock, bs, …, 0)` for a non-empty `bs`. -/
def send (s : Socket) (bs : List Byte) : Sent × Socket :=
  match s.outcomes with
  | [] => (.taken bs.length, { s with sent := s.sent ++ bs })
  | .accept k :: rest =>
    (.taken (min (k + 1) bs.length),
      { s with outcomes := rest, sent := s.sent ++ bs.take (k + 1) })
  | .interrupt :: rest => (.interrupted, { s with outcomes := rest })
  | .fail :: _ => (.failed, s)

/-- A connection on which `bs` comes in byte by byte, and every send succeeds. -/
def Socket.receiving (bs : List Byte) : Socket where
  arrivals := bs.map fun b => .segment b []
  broken := false
  outcomes := []
  sent := []

@[simp] theorem incoming_receiving (bs : List Byte) : (Socket.receiving bs).incoming = bs := by
  induction bs with
  | nil => rfl
  | cons b bs ih => exact congrArg (b :: ·) ih

/-! ## The calls make progress -/

/-- Data come off the front of the incoming stream, at least one byte and at most as many as asked
for, and nothing else changes. -/
theorem recvfrom_data {s s' : Socket} {size : Nat} {bs : List Byte} (hsize : 0 < size)
    (h : recvfrom s size = (.data bs, s')) :
    0 < bs.length ∧ bs.length ≤ size ∧ s.incoming = bs ++ s'.incoming ∧
      ∃ a, s' = { s with arrivals := a } ∧ a.length ≤ s.arrivals.length := by
  unfold recvfrom at h
  split at h
  · split at h <;> cases h
  · cases h
  · rename_i b bs' rest harr
    split at h
    · rename_i hdrop
      cases h
      have hlen : (b :: bs').length ≤ size := List.drop_eq_nil_iff.mp hdrop
      refine ⟨by simp, hlen, ?_, rest, rfl, by simp [harr]⟩
      simp [Socket.incoming, harr, arrivedBytes]
    · rename_i c cs hdrop
      cases h
      have hlen : size < (b :: bs').length := by
        by_contra hle
        rw [List.drop_eq_nil_of_le (by omega)] at hdrop
        cases hdrop
      refine ⟨?_, List.length_take_le _ _, ?_, .segment c cs :: rest, rfl, by simp [harr]⟩
      · rw [List.length_take]
        omega
      · have hsplit := List.take_append_drop size (b :: bs')
        rw [hdrop] at hsplit
        simp only [Socket.incoming, harr, arrivedBytes]
        rw [← List.append_assoc, hsplit]

theorem recvfrom_interrupted {s s' : Socket} {size : Nat}
    (h : recvfrom s size = (.interrupted, s')) :
    s.incoming = s'.incoming ∧
      ∃ a, s' = { s with arrivals := a } ∧ a.length < s.arrivals.length := by
  unfold recvfrom at h
  split at h
  · split at h <;> cases h
  · rename_i rest harr
    cases h
    refine ⟨by simp [Socket.incoming, harr, arrivedBytes], rest, rfl, by simp [harr]⟩
  · split at h <;> cases h

/-- A receive ends the stream only when nothing is left of it. -/
theorem recvfrom_ended {s s' : Socket} {size : Nat} {r : Received}
    (hr : r = .closed ∨ r = .failed) (h : recvfrom s size = (r, s')) :
    s' = s ∧ s.incoming = [] := by
  unfold recvfrom at h
  split at h
  · rename_i harr
    cases h
    exact ⟨rfl, by simp [Socket.incoming, harr, arrivedBytes]⟩
  · cases h
    rcases hr with hr | hr <;> cases hr
  · split at h <;> cases h <;> rcases hr with hr | hr <;> cases hr

/-- The kernel takes a non-empty piece from the front of what it is given. -/
theorem send_taken {s s' : Socket} {bs : List Byte} {n : Nat} (hbs : 0 < bs.length)
    (h : send s bs = (.taken n, s')) :
    0 < n ∧ n ≤ bs.length ∧
      ∃ o, s' = { s with outcomes := o, sent := s.sent ++ bs.take n } ∧ o <:+ s.outcomes := by
  unfold send at h
  split at h
  · rename_i hout
    cases h
    exact ⟨hbs, Nat.le_refl _, [], by simp [← hout], by simp⟩
  · rename_i k rest hout
    cases h
    refine ⟨by omega, by omega, rest, ?_, by simp [hout]⟩
    rcases Nat.le_total (k + 1) bs.length with hk | hk
    · simp [Nat.min_eq_left hk]
    · simp [Nat.min_eq_right hk, List.take_of_length_le hk]
  · cases h
  · cases h

theorem send_interrupted {s s' : Socket} {bs : List Byte} (h : send s bs = (.interrupted, s')) :
    ∃ o, s' = { s with outcomes := o } ∧ o <:+ s.outcomes ∧ o.length < s.outcomes.length := by
  unfold send at h
  split at h
  · cases h
  · cases h
  · rename_i rest hout
    cases h
    exact ⟨rest, rfl, by simp [hout], by simp [hout]⟩
  · cases h

theorem send_dead {s : Socket} (hd : s.Dead) (bs : List Byte) : send s bs = (.failed, s) := by
  unfold send
  split
  · rename_i hout
    simp [Socket.Dead, hout] at hd
  · rename_i hout
    simp [Socket.Dead, hout] at hd
  · rename_i hout
    simp [Socket.Dead, hout] at hd
  · rfl

/-- Only a dead socket fails a send. -/
theorem send_failed {s s' : Socket} {bs : List Byte} (h : send s bs = (.failed, s')) :
    s' = s ∧ s.Dead := by
  unfold send at h
  split at h
  · cases h
  · cases h
  · cases h
  · rename_i rest hout
    cases h
    exact ⟨rfl, by simp [Socket.Dead, hout]⟩

end Network

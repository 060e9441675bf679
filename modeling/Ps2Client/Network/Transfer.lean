import Ps2Client.Network.Socket

/-!
# `network_send` and `network_receive_all`

The two loops of `network.c` that turn the partial transfers of a stream socket into whole ones.
Sizes are C `int`s: a size that is not positive transfers nothing and succeeds.
-/

namespace Network

open CMemory

/-- The loop of `network_send`: `total` bytes of the buffer have been sent. -/
def sendLoop (buffer : List Byte) (size : Nat) (total : Nat) (s : Socket) : Int × Socket :=
  if _ : total < size then
    match h : send s (peek buffer total (size - total)) with
    | (.taken n, s') => sendLoop buffer size (total + n) s'
    | (.interrupted, s') => sendLoop buffer size total s'
    | (.failed, s') => (-1, s')
  else (total, s)
termination_by s.outcomes.length + (size - total)
decreasing_by
  · obtain ⟨hn, -, o, rfl, ho⟩ := send_taken (by simp; omega) h
    have := ho.length_le
    simp only
    omega
  · obtain ⟨o, rfl, -, ho⟩ := send_interrupted h
    simp only
    omega

/-- `network_send`. -/
def networkSend (s : Socket) (buffer : List Byte) (size : Int) : Int × Socket :=
  sendLoop buffer size.toNat 0 s

/-- The loop of `network_receive_all`: `stored` is what lies at the start of the buffer. -/
def receiveLoop (size : Nat) (stored : List Byte) (s : Socket) : Int × List Byte × Socket :=
  if _ : stored.length < size then
    match h : recvfrom s (size - stored.length) with
    | (.data bs, s') => receiveLoop size (stored ++ bs) s'
    | (.interrupted, s') => receiveLoop size stored s'
    | (.closed, s') => (-1, stored, s')
    | (.failed, s') => (-1, stored, s')
  else (stored.length, stored, s)
termination_by s.arrivals.length + (size - stored.length)
decreasing_by
  · obtain ⟨hbs, -, -, a, rfl, ha⟩ := recvfrom_data (by omega) h
    simp only [List.length_append]
    omega
  · obtain ⟨-, a, rfl, ha⟩ := recvfrom_interrupted h
    simp only
    omega

/-- `network_receive_all`: the result and the bytes stored at the start of the buffer. -/
def networkReceiveAll (s : Socket) (size : Int) : Int × List Byte × Socket :=
  receiveLoop size.toNat [] s

end Network

import Ps2Client.Network.Transfer

/-!
# Streams

What a stream carries through the two loops: each transfer on its own, and any sequence of sends on
one side against any sequence of receives on the other. The receiver's socket is one on which the
bytes of the stream come in, cut anywhere and with any interrupts.
-/

namespace Network

open CMemory

/-- `network_send` of a whole buffer. -/
def sendWhole (s : Socket) (buffer : List Byte) : Int × Socket := networkSend s buffer buffer.length

/-- `network_send` returns the size of the buffer exactly when all of it went out, once and in order;
else it returns -1, and a part from the front went out. -/
structure SendExact (s : Socket) (buffer : List Byte) : Prop where
  whole : (sendWhole s buffer).1 = buffer.length ↔ (sendWhole s buffer).2.sent = s.sent ++ buffer
  part : (sendWhole s buffer).1 ≠ buffer.length →
    (sendWhole s buffer).1 = -1 ∧ ∃ t, t <+: buffer ∧ (sendWhole s buffer).2.sent = s.sent ++ t

/-- `network_receive_all` of `n` bytes returns `n` exactly when it has stored the next `n` bytes and
left those behind them, and -1 exactly when the stream ends before. -/
structure ReceiveExact (s : Socket) (n : Nat) : Prop where
  whole : (networkReceiveAll s n).1 = n ↔ n ≤ s.incoming.length ∧
    (networkReceiveAll s n).2.1 = s.incoming.take n ∧
    (networkReceiveAll s n).2.2.incoming = s.incoming.drop n
  ended : (networkReceiveAll s n).1 = -1 ↔ s.incoming.length < n
  result : (networkReceiveAll s n).1 = n ∨ (networkReceiveAll s n).1 = -1

/-! ## Sequences of transfers -/

/-- The results of sends, one after the other. -/
def sends : List (List Byte) → Socket → List Int × Socket
  | [], s => ([], s)
  | buffer :: buffers, s =>
    let (result, s) := sendWhole s buffer
    let (results, s) := sends buffers s
    (result :: results, s)

/-- The results of receives, one after the other, each with what it stored. -/
def receives : List Nat → Socket → List (Int × List Byte) × Socket
  | [], s => ([], s)
  | n :: sizes, s =>
    let (result, stored, s) := networkReceiveAll s n
    let (results, s) := receives sizes s
    ((result, stored) :: results, s)

/-- What the sends put on the stream. -/
def Carried (buffers : List (List Byte)) (s : Socket) : List Byte :=
  (sends buffers s).2.sent.drop s.sent.length

/-- The receives have received the buffers, and have left what comes behind them. -/
structure Unchanged (buffers : List (List Byte)) (sizes : List Nat) (behind : List Byte)
    (receiver : Socket) : Prop where
  results : (receives sizes receiver).1.map Prod.fst = sizes.map fun n : Nat => (n : Int)
  bytes : ((receives sizes receiver).1.map Prod.snd).flatten = buffers.flatten
  left : (receives sizes receiver).2.incoming = behind

end Network

import Ps2Client.Ps2link.Framing

/-!
# What a packet has to cover

The thread checks the length of a packet only against the size of its buffer, and the handlers read
their structs from the buffer whatever the length was. What a packet does not cover is read from
what earlier packets have left there, or from the memory behind the buffer.
-/

namespace Ps2link

open CMemory Network Utility

/-- The client at the end of a turn. -/
def Turn.client {σ : Type} : Turn σ → Client σ
  | .next _ s => s
  | .stop s => s
  | .crash s => s

/-- Serving a packet makes the same host calls and sends the same bytes whatever was in memory
before. -/
def PacketAlone (k : Kind) (payload : List Byte) : Prop :=
  ∀ (σ : Type) (h : Host σ) (e : Endian) (s : Client σ) (rest before before' : List Byte),
    s.sock.incoming =
      be32 k.request ++ (be16 (.ofNat 16 (6 + payload.length)) ++ (payload ++ rest)) →
    (requestTurn h e before s).client.calls = (requestTurn h e before' s).client.calls ∧
      (requestTurn h e before s).client.sock.sent = (requestTurn h e before' s).client.sock.sent

/-- The packet covers the integers that the handler reads and the terminator of its path. A
directory descriptor is out of range already if one of its first bytes is not zero. -/
def Kind.Covered (k : Kind) (payload : List Byte) : Prop :=
  match k with
  | .close => 4 ≤ payload.length
  | .read | .write => 8 ≤ payload.length
  | .lseek => 12 ≤ payload.length
  | .open | .opendir | .mkdir => 0 ∈ payload.drop 4
  | .remove | .rmdir | .getstat => 0 ∈ payload
  | .closedir | .readdir => 4 ≤ payload.length ∨ ∃ b ∈ payload, b ≠ 0

end Ps2link

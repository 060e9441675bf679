import Ps2Client.Ps2link.Framing

/-!
# The full names of directory entries

`ps2link_request_readdir` joins the path of a directory, which an earlier `opendir` stored, and the
name of an entry in an array of 512 bytes. The path comes out of the packet buffer of that `opendir`,
whose payload may be as long as the array.
-/

namespace Ps2link

open CMemory Network Utility

variable {σ : Type} (h : Host σ) (e : Endian)

/-- The request thread from its start on, over packets that pass its length check, in which every
request meets `P` in the state in which it is served. The client reached has `packet` in its
buffer. -/
inductive ThreadRun (P : Operation → Client σ → Prop) : List Byte → Client σ → Prop where
  | start (packet : List Byte) (host : σ) (sock : Socket) : ThreadRun P packet (.initial host sock)
  | turn {packet packet' : List Byte} {s s' : Client σ} (hrun : ThreadRun P packet s) (number : Word)
    (payload rest : List Byte) (hlen : payload.length ≤ 512)
    (hin : s.sock.incoming =
      be32 number ++ (be16 (.ofNat 16 (6 + payload.length)) ++ (payload ++ rest)))
    (hP : ∀ k, Kind.ofNumber number = some k →
      P (k.decode e (inBuffer number payload packet)) s)
    (hturn : requestTurn h e packet s = .next packet' s') : ThreadRun P packet' s'

/-- The full name of every entry, with its terminator, fits the array: `sprintf` writes the path, a
slash, the name of the entry and a null byte. -/
def JoinFits (s : Client σ) : Prop :=
  ∀ i, (s.dd i).dir ≠ none → ∀ name : List Byte, name.length ≤ 255 →
    ((s.dd i).pathname.getD [] ++ ascii '/' :: name ++ [0]).length ≤ 512

/-- An `opendir` that opens a directory has a path of at most 255 bytes. -/
def PathFits (op : Operation) (s : Client σ) : Prop :=
  match op with
  | .opendir path =>
    let stats := h.call (.stat path) s.host
    stats.1.any (fun st => isDir st.mode) → freeSlot s.dd ≠ none →
      (h.call (.opendir path) (h.call (.malloc (path.length + 1)) stats.2).2).1 ≠ none →
      path.length ≤ 255
  | _ => True

end Ps2link

import Ps2Client.Ps2link.Seeking

/-!
# Reading a file

The ps2 reads a host file from its start, with `read` requests of any sizes, until a response has no
data.
-/

namespace Ps2link

open CMemory Network Posix

/-- Every allocation succeeds. -/
def Allocates {σ : Type} (h : Host σ) : Prop :=
  ∀ size st, (h.call (.malloc size) st).1 ≠ none

/-- The data of the responses, one for each request. No response has more than was asked for, its
`result` and its `size` are the number of its data, the data are the content from its start on, and
when a response has none, the data before it are the whole content. That happens at the latest when
there are more requests than bytes. -/
structure Chunks (content : List Byte) (sizes : List Word) (chunks : List (List Byte)) : Prop where
  asked : List.Forall₂ (fun chunk size => chunk.length ≤ size.toNat) chunks sizes
  fields : ∀ chunk ∈ chunks, (net32 (readAnswer chunk) 6).toInt = chunk.length ∧
    (net32 (readAnswer chunk) 10).toInt = chunk.length
  isPrefix : chunks.flatten <+: content
  whole : ∀ k, chunks[k]? = some [] → (chunks.take k).flatten = content
  ends : content.length < sizes.length → [] ∈ chunks

variable {σ : Type} (h : Host σ) (e : Endian)

/-- The thread makes a turn for each request, and sends a response with its data. -/
def ReadsExact (content : List Byte) (sizes : List Word) (packet : List Byte) (s : Client σ) : Prop :=
  ∃ packet' s' chunks, requestTurns h e sizes.length packet s = .next packet' s' ∧
    s'.sock.sent = s.sock.sent ++ (chunks.map readAnswer).flatten ∧ Chunks content sizes chunks

/-- A `read` into the buffer on the stack and one into an allocated buffer that get the same result
from the host send the same bytes. -/
def BuffersAlike : Prop :=
  ∀ (fd size fd' size' : Word) (s s' : Client σ) (got : Option (List Byte)), size.toNat ≤ 65536 →
    65536 < size'.toNat → s.sock = s'.sock → (h.call (.read fd.toInt size.toNat) s.host).1 = got →
    (h.call (.read fd'.toInt size'.toNat) (h.call (.malloc size'.toNat) s'.host).2).1 = got →
    (performRead h e fd size s).2.sock = (performRead h e fd' size' s').2.sock

end Ps2link

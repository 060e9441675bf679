import Ps2Client.Ps2link.Operations

/-!
# Framing of the request connection

What the request connection carries in both directions: requests, each a packet that for `write` is
followed by data outside of its length, and responses, each a packet that for `read` is followed by
data. Whether a request is answered also depends on calls that the handlers do not check.
-/

namespace Ps2link

open CMemory Network Utility

/-- A request as the ps2 sends it. -/
structure Request where
  number : Word
  /-- The packet after the header. -/
  payload : List Byte
  /-- What follows the packet. -/
  data : List Byte
  deriving DecidableEq, Repr

def Request.bytes (r : Request) : List Byte :=
  be32 r.number ++ (be16 (.ofNat 16 (6 + r.payload.length)) ++ (r.payload ++ r.data))

def Request.kind (r : Request) : Option Kind := Kind.ofNumber r.number

/-- The packet fits the buffer and covers the struct of its kind, and only a `write` has data, as
many bytes as its size says. -/
def Request.WellFormed (r : Request) : Prop :=
  r.payload.length ≤ 512 ∧
    match r.kind with
    | none => r.data = []
    | some .write => 14 ≤ 6 + r.payload.length ∧ (net32 r.payload 4).toNat < 2 ^ 31 ∧
        r.data.length = (net32 r.payload 4).toNat
    | some k => k.structSize ≤ 6 + r.payload.length ∧ r.data = []

/-- A packet as it lies in the buffer, in front of what was there before. -/
def inBuffer (number : Word) (payload packet : List Byte) : List Byte :=
  be32 number ++ (be16 (.ofNat 16 (6 + payload.length)) ++
    (payload ++ packet.drop (6 + payload.length)))

/-- The operation a request of kind `k` asks for, when `packet` is in the buffer. -/
def Request.operation (e : Endian) (r : Request) (k : Kind) (packet : List Byte) : Operation :=
  k.decode e (inBuffer r.number r.payload packet)

/-- A response to a request of kind `k`: a packet with the next number and the length of its struct,
for `read` followed by as many bytes as its size says. -/
def IsResponse (k : Kind) (bs : List Byte) : Prop :=
  ∃ fields data : List Byte,
    bs = be32 (k.request + 1) ++ (be16 (.ofNat 16 k.responseSize) ++ (fields ++ data)) ∧
    6 + fields.length = k.responseSize ∧
    data.length = if k = .read then (net32 fields 4).toInt.toNat else 0

/-- What is sent for a request: one response, or nothing when the number is unknown. -/
def Request.AnsweredBy (r : Request) (bs : List Byte) : Prop :=
  match r.kind with
  | none => bs = []
  | some k => IsResponse k bs

variable {σ : Type} (h : Host σ) (e : Endian)

/-- The client with other arrivals on the request connection. -/
abbrev Client.arrive (s : Client σ) (a : List Arrival) : Client σ :=
  { s with sock := { s.sock with arrivals := a } }

/-- The bytes sent from `s` to `s'`. -/
def answer (s s' : Client σ) : List Byte := s'.sock.sent.drop s.sock.sent.length

/-- The `result` field of the response sent from `s` to `s'`. -/
def answerResult (s s' : Client σ) : Int := (net32 (answer s s') 6).toInt

/-- A `write` gets the buffer it needs. -/
def Operation.Allocated : Operation → Client σ → Prop
  | .write _ size, s => 65536 < size.toNat → (h.call (.malloc size.toNat) s.host).1 ≠ none
  | _, _ => True

/-- `localtime` has an answer for all times of a `struct stat`. -/
def TimesDefined (st : Stat) : Prop :=
  h.localtime st.ctime ≠ none ∧ h.localtime st.atime ≠ none ∧ h.localtime st.mtime ≠ none

/-- The handler of an operation does not run into a null pointer or over the end of an array. -/
def Operation.Defined : Operation → Client σ → Prop
  | .opendir path, s =>
    (h.call (.stat path) s.host).1.any (fun st => isDir st.mode) → freeSlot s.dd ≠ none →
      (h.call (.malloc (path.length + 1)) (h.call (.stat path) s.host).2).1 ≠ none
  | .readdir dd, s => ∀ i dir name, openSlot s.dd dd = some (i, dir) →
      (h.call (.readdir dir) s.host).1 = some name →
      ((s.dd i).pathname.getD [] ++ ascii '/' :: name).length < 512 ∧
        TimesDefined h (statOrStack h ((s.dd i).pathname.getD [] ++ ascii '/' :: name)
          (s.call h (.readdir dir)).2).1
  | .getstat path, s => ∀ st, (h.call (.stat path) s.host).1 = some st → TimesDefined h st
  | _, _ => True

/-- The offset of the path in a packet of a kind, if there is one. -/
def Kind.pathOffset : Kind → Option Nat
  | .open | .opendir | .mkdir => some 10
  | .remove | .rmdir | .getstat => some 6
  | .close | .read | .write | .lseek | .closedir | .readdir => none

/-- The path of a packet ends inside the 518 bytes of the packet's array, so that `fix_pathname` does
not read and shift what lies behind it. -/
def Kind.PathEnds (k : Kind) (m : List Byte) : Prop :=
  ∀ off, k.pathOffset = some off → 0 ∈ (m.take 518).drop off

/-- The handler of a packet of kind `k` stays within its arrays and runs into no null pointer. -/
def Kind.Defined (k : Kind) (m : List Byte) (s : Client σ) : Prop :=
  k.PathEnds m ∧ (k.decode e m).Defined h s

/-- `P` holds of the kind of each request and of the buffer with its packet, in the state in which it
is served. -/
def AlongPackets (P : Kind → List Byte → Client σ → Prop) :
    List Request → List Byte → Client σ → Prop
  | [], _, _ => True
  | r :: rs, packet, s =>
    (∀ k, r.kind = some k → P k (inBuffer r.number r.payload packet) s) ∧
      ∀ packet' s', requestTurn h e packet s = .next packet' s' → AlongPackets P rs packet' s'

/-- `P` holds of the operation of each request, in the state in which it is served. -/
def Along (P : Operation → Client σ → Prop) : List Request → List Byte → Client σ → Prop :=
  AlongPackets h e fun k m => P (k.decode e m)

/-- The first `n` turns of the request thread. -/
def requestTurns : Nat → List Byte → Client σ → Turn σ
  | 0, packet, s => .next packet s
  | n + 1, packet, s =>
    match requestTurn h e packet s with
    | .next packet s => requestTurns n packet s
    | turn => turn

/-! ## Writes -/

/-- The descriptors and the data of the host writes among some calls. -/
def hostWrites (calls : List HostCall) : List (Int × List Byte) :=
  calls.filterMap fun
    | .write fd data => some (fd, data)
    | _ => none

/-- From `s` to `s'` a `write` is served: its data, and nothing else, are taken off the stream
`rest` and written, and one response is sent, as far as the connection takes it. -/
def WriteServed (fd size : Word) (rest : List Byte) (s s' : Client σ) : Prop :=
  size.toNat ≤ rest.length ∧ s'.sock.incoming = rest.drop size.toNat ∧
    (∃ calls, s'.calls = s.calls ++ calls ∧
      hostWrites calls = [(fd.toInt, rest.take size.toNat)]) ∧
    ∃ bs t, IsResponse .write bs ∧ s'.sock.sent = s.sock.sent ++ t ∧ t <+: bs ∧
      (s.sock.Writable → t = bs)

/-- From `s` to `s'` a `write` is given up: nothing is written or sent, and there is no further
header on the stream, so that the thread ends. -/
def WriteGivenUp (packet' : List Byte) (s s' : Client σ) : Prop :=
  (∃ calls, s'.calls = s.calls ++ calls ∧ hostWrites calls = []) ∧
    s'.sock.sent = s.sock.sent ∧ s'.sock.incoming.length < 6 ∧
    ∃ a, threadRequest h e packet' s' =
      { s' with sock := { s'.sock with arrivals := a }, lost := true }

/-- The turn on a `write` serves it or ends the connection. -/
def WriteHandled (fd size : Word) (rest packet : List Byte) (s : Client σ) : Prop :=
  ∃ packet' s', requestTurn h e packet s = .next packet' s' ∧
    (WriteServed fd size rest s s' ∨ WriteGivenUp h e packet' s s')

/-- The handler can serve a `write` of `size` bytes, of which `rest` has arrived, or there is nothing
left that it could take for a header. -/
def WriteServable (size : Word) (rest : List Byte) (s : Client σ) : Prop :=
  size.toNat ≤ 65536 ∨
    match (h.call (.malloc size.toNat) s.host).1 with
    | none => rest.length < 6
    | some _ => size.toNat < 2 ^ 31

/-! ## Runs -/

/-- The request connection stays in step over the requests `reqs`: the thread makes one turn for
each, takes exactly their bytes off the stream, and sends exactly their answers, as far as the
connection takes them. When a header of an invalid length follows, the thread ends there. -/
def InStep (reqs : List Request) (rest packet : List Byte) (s : Client σ) : Prop :=
  ∃ (packet' : List Byte) (s' : Client σ) (answers : List (List Byte)),
    requestTurns h e reqs.length packet s = .next packet' s' ∧
    threadRequest h e packet s = threadRequest h e packet' s' ∧
    s'.sock.incoming = rest ∧
    List.Forall₂ Request.AnsweredBy reqs answers ∧
    (∃ t, s'.sock.sent = s.sock.sent ++ t ∧ t <+: answers.flatten ∧
      (s.sock.Writable → t = answers.flatten)) ∧
    ∀ number length more, rest = be32 number ++ (be16 length ++ more) →
      length.toNat < 6 ∨ 518 < length.toNat →
      ∃ a, arrivedBytes a = more ∧
        threadRequest h e packet s =
          { s' with sock := { s'.sock with arrivals := a }, lost := true }

end Ps2link

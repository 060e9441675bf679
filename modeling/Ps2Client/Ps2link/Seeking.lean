import Ps2Client.Ps2link.PosixHost

/-!
# Seeking and reading

Runs of `lseek` and `read` requests on one descriptor of a POSIX host.
-/

namespace Ps2link

open CMemory Network Utility Posix

/-- The values of `whence` that the protocol has. -/
inductive Whence where
  | set
  | current
  | «end»
  deriving DecidableEq, Repr

def Whence.code : Whence → Word
  | .set => 0x0000
  | .current => 0x0001
  | .end => 0x0002

/-- The position that an offset is added to. -/
def Whence.base (whence : Whence) (fs : HostFiles) (f : OpenFile Nat) : Nat :=
  match whence with
  | .set => 0
  | .current => f.position
  | .end => (fs.content f.inode).length

inductive FileRequest where
  | lseek (offset : Word) (whence : Whence)
  | read (size : Word)
  deriving DecidableEq, Repr

def FileRequest.request (fd : Word) : FileRequest → Request
  | .lseek offset whence => ⟨REQUEST_LSEEK, be32 fd ++ (be32 offset ++ be32 whence.code), []⟩
  | .read size => ⟨REQUEST_READ, be32 fd ++ be32 size, []⟩

/-- The descriptor `fd` is of a file shorter than 2^31 bytes that may be read, at any position. -/
structure Readable (fs : HostFiles) (fd : Int) (f : OpenFile Nat) : Prop where
  opened : fs.opened fd = some f
  readable : f.readable = true
  short : (fs.content f.inode).length < 2 ^ 31
  position : (f.position : Int) ≤ OFF_MAX

/-- A seek to `target`: the descriptor is there, and the response says so if it can. When there is no
such position nothing has changed, and the response is -1. -/
def SeekDone (fd : Int) (f : OpenFile Nat) (target : Int) (fs fs' : HostFiles) (result : Int) :
    Prop :=
  if 0 ≤ target ∧ target ≤ OFF_MAX then
    fs' = fs.moveTo fd f target.toNat ∧ (target < 2 ^ 31 → result = target)
  else fs' = fs ∧ result = -1

/-- The response to a `read` of `data`, and the data. -/
def readAnswer (data : List Byte) : List Byte :=
  be32 RESPONSE_READ ++ (be16 14 ++
    (be32 (.ofNat 32 data.length) ++ (be32 (.ofNat 32 data.length) ++ data)))

variable {σ : Type} (h : Host σ) (e : Endian) (view : σ → HostFiles)

/-- From `s` to `s'` a request is served as the file asks for: a seek adds the signed offset, and a
read gives the bytes from the position on. A read that gets no memory for its buffer is refused. -/
def FileRequest.Served (fd : Word) (f : OpenFile Nat) (s s' : Client σ) : FileRequest → Prop
  | .lseek offset whence =>
    SeekDone fd.toInt f (whence.base (view s.host) f + offset.toInt) (view s.host) (view s'.host)
      (answerResult s s')
  | .read size =>
    (∃ n ≤ size.toNat,
      (n = 0 → size.toNat = 0 ∨ ((view s.host).content f.inode).length ≤ f.position) ∧
      answer s s' = readAnswer (((view s.host).content f.inode).drop f.position |>.take n) ∧
      view s'.host = ((view s.host).read fd.toInt n).2) ∨
    (65536 < size.toNat ∧ (h.call (.malloc size.toNat) s.host).1 = none) ∧
      answerResult s s' = -1 ∧ view s'.host = view s.host

/-- The thread serves each request of a sequence as the file asks for. -/
def PositionsKept (fd : Word) : List FileRequest → List Byte → Client σ → Prop
  | [], _, _ => True
  | r :: rs, packet, s => ∃ packet' s' f, requestTurn h e packet s = .next packet' s' ∧
      (view s.host).opened fd.toInt = some f ∧ r.Served h view fd f s s' ∧
      PositionsKept fd rs packet' s'

/-- An offset that is the same as a signed and as an unsigned number; or the seek asks for the
position -1, and the descriptor is already where the unsigned offset leads to. -/
def OffsetKept : Operation → Client σ → Prop
  | .lseek fd offset whence, s => ∀ f base, (view s.host).opened fd.toInt = some f →
      (view s.host).base f whence.toInt = some base →
      0 ≤ offset.toInt ∨ base + offset.toInt = -1 ∧ f.position = 2 ^ 32 - 1
  | _, _ => True

end Ps2link

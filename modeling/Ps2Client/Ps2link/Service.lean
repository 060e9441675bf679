import Ps2Client.Posix.Service
import Ps2Client.Ps2link.Appending
import Ps2Client.Ps2link.Reading

/-!
# The request thread as a file service

The requests for regular files, on any number of files and descriptors and in any order, and what the
ps2 learns from the responses.
-/

namespace Ps2link

open CMemory Network Utility Posix

/-- A request for a file, with the data of a `write`. -/
inductive FileCall where
  | «open» (flags : Word) (path : PathField)
  | close (fd : Word)
  | read (fd size : Word)
  | write (fd : Word) (data : List Byte)
  | lseek (fd offset whence : Word)

def FileCall.request : FileCall → Request
  | .open flags path => (Fields.open flags path).request []
  | .close fd => (Fields.close fd).request []
  | .read fd size => (Fields.read fd size).request []
  | .write fd data => (Fields.write fd (.ofNat 32 data.length)).request data
  | .lseek fd offset whence => ⟨REQUEST_LSEEK, be32 fd ++ (be32 offset ++ be32 whence), []⟩

/-- What it asks a file service for. The offset of an `lseek` is taken as an unsigned number. -/
def FileCall.op : FileCall → Op (List Byte) Byte
  | .open flags path => .open (hostPath path.path) (fixFlags flags &&& O_ACCMODE != O_WRONLY)
      (fixFlags flags &&& O_APPEND != 0) (fixFlags flags &&& O_TRUNC != 0)
  | .close fd => .close fd.toInt
  | .read fd size => .read fd.toInt size.toNat
  | .write fd data => .write fd.toInt data
  | .lseek fd offset whence => .lseek fd.toInt offset.toNat whence.toInt

/-- The response, as the ps2 reads it. -/
def FileCall.reply (c : FileCall) (response : List Byte) : Reply Byte :=
  match c with
  | .read .. => .data (response.drop 14)
  | _ => .result (net32 response 6).toInt

/-- What a response can carry of an answer: an `off_t` is cut to an `int`. -/
def FileCall.carried (c : FileCall) (reply : Reply Byte) : Reply Byte :=
  match c, reply with
  | .lseek .., .result n => .result (toInt32 n)
  | _, reply => reply

/-- The request is for an existing file, for a descriptor that is open for what is asked, or a `close`,
and its sizes are within `int`. -/
def FileCall.Acceptable (fs : HostFiles) : FileCall → Prop
  | .open flags path => hostPath path.path ≠ PING_PATHNAME ∧ fs.lookup (hostPath path.path) ≠ none ∧
      (fixFlags flags &&& O_TRUNC = 0 ∨ fixFlags flags &&& O_ACCMODE ≠ O_RDONLY)
  | .close _ => True
  | .read fd size => (∃ f, fs.opened fd.toInt = some f ∧ f.readable = true) ∧ size.toNat < 2 ^ 31
  | .write fd data => fs.opened fd.toInt ≠ none ∧ data.length < 2 ^ 31
  | .lseek fd _ _ => fs.opened fd.toInt ≠ none

/-- The ps2 also closes only what it has open. Any other descriptor may be one of the client's own, such
as the socket that the requests come from. -/
def FileCall.Fair (c : FileCall) (fs : HostFiles) : Prop :=
  c.Acceptable fs ∧ ∀ fd, c = .close fd → fs.opened fd.toInt ≠ none

variable {σ : Type} (h : Host σ) (e : Endian) (view : σ → HostFiles)

/-- A POSIX host that has memory, and on which a failing `open` changes no file. -/
structure FileServer : Prop extends PosixHost h view where
  allocates : Allocates h
  openFails : ∀ {st path flags mode}, (h.call (.open path flags mode) st).1 = (-1 : Int) →
    view (h.call (.open path flags mode) st).2 = view st

/-- The requests that the thread serves one after the other, with what the ps2 reads in the responses.
Each of them satisfies `P` when it is served. -/
inductive Session (P : FileCall → HostFiles → Prop) :
    List (FileCall × Reply Byte) → Client σ → Client σ → Prop where
  | nil (s : Client σ) : Session P [] s s
  | cons {c : FileCall} {rest : List (FileCall × Reply Byte)} {s s₁ s₂ : Client σ}
    (hcall : P c (view s.host)) (hturn : TurnOn h e c.request s s₁) (hrest : Session P rest s₁ s₂) :
    Session P ((c, c.reply (answer s s₁)) :: rest) s s₂

/-- An acceptable request that does not change the file `i`. -/
def FileCall.Spares (i : Nat) (c : FileCall) (fs : HostFiles) : Prop :=
  c.Acceptable fs ∧ ¬ c.op.Touches fs i

/-- A file is opened, `chunks` are written to it, each accepted whole, and it is closed. -/
def uploading (flags : Word) (path : PathField) (fd : Word) (result : Int) (chunks : List (List Byte)) :
    List (FileCall × Reply Byte) :=
  (.open flags path, .result fd.toInt) ::
    (chunks.map (fun chunk => (.write fd chunk, .result chunk.length)) ++ [(.close fd, .result result)])

/-- A file is opened, and read until a response has no data. Each `read` has a size and its data. -/
def downloading (flags : Word) (path : PathField) (fd : Word) (reads : List (Word × List Byte))
    (last : Word) : List (FileCall × Reply Byte) :=
  (.open flags path, .result fd.toInt) ::
    (reads.map (fun r => (.read fd r.1, .data r.2)) ++ [(.read fd last, .data [])])

end Ps2link

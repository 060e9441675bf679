import Ps2Client.Posix.Service
import Ps2Client.Ps2netfs.Protocol
import Ps2Client.Ps2netfs.Session

/-!
# A server of ps2netfs

The other end of the two streams. The server takes requests off the one, as the document lays them out,
and puts a response on the other for each. Its files are a file service: it may refuse any request, and
transfer less than it was asked for, but what it says it has done, it has done.
-/

namespace Ps2netfs

open CMemory Posix

/-- The regular files of the server, with the bytes of their paths. -/
abbrev ServerFiles := Files (List Byte) Nat Byte

/-! ## The flags of an open request -/

def opensToRead (flags : Word) : Bool := flags &&& 0x0001 != 0
def opensToAppend (flags : Word) : Bool := flags &&& 0x0100 != 0
def opensToCreate (flags : Word) : Bool := flags &&& 0x0200 != 0
def opensToTruncate (flags : Word) : Bool := flags &&& 0x0400 != 0

/-! ## One request -/

/-- The operation on the files that a request asks for. -/
def Received.op : Received → Option (Op (List Byte) Byte)
  | .open flags pathname =>
    some (.open pathname.bytes (opensToRead flags) (opensToAppend flags) (opensToTruncate flags))
  | .close fd => some (.close fd.toInt)
  | .read fd size => some (.read fd.toInt size.toInt.toNat)
  | .write fd _ data => some (.write fd.toInt data)
  | .lseek fd offset whence => some (.lseek fd.toInt offset.toInt whence.toInt)
  | .delete .. | .mkdir .. | .rmdir .. | .dopen .. | .dclose _ | .dread _ | .sync .. | .mount ..
  | .umount .. | .devlist .. => none

/-- The size of what follows the packet of a request. -/
def Received.dataSize : Received → Nat
  | .write _ size _ => size.toInt.toNat
  | _ => 0

def Received.responseSize : Received → Nat
  | .read .. => 14
  | .dread _ => 306
  | .devlist .. => 270
  | _ => 10

/-- A response to a request, with as many data as its result says. -/
def Answer.IsFor (a : Answer) (r : Received) : Prop :=
  a.response.length = r.responseSize ∧
    match r with
    | .read _ size => (a.data.length : Int) = max a.result 0 ∧ a.result ≤ size.toInt
    | _ => a.data = []

/-- The response says what came of the operation. A position in a file is cut to an `int`. -/
def Answer.Tells (a : Answer) : Op (List Byte) Byte → Reply Byte → Prop
  | .lseek .., .result n => a.result = toInt32 n
  | _, .result n => a.result = n
  | _, .data bytes => a.result = bytes.length ∧ a.data = bytes

/-- What the server may make of a request. -/
inductive Turn : Received → Answer → ServerFiles → ServerFiles → Prop where
  | refused (r : Received) {a : Answer} (fs : ServerFiles) (hfailed : a.result < 0) : Turn r a fs fs
  | served {r : Received} {a : Answer} {op : Op (List Byte) Byte} {reply : Reply Byte}
    {fs fs' : ServerFiles} (hop : r.op = some op) (hserves : Serves op reply fs fs')
    (htells : a.Tells op reply) : Turn r a fs fs'
  | created {a : Answer} {fs : ServerFiles} {flags : Word} {pathname : CStr} (i fd : Nat)
    (hcreate : opensToCreate flags = true) (hpath : fs.lookup pathname.bytes = none)
    (hnew : ∀ path, fs.lookup path ≠ some i) (hfd : a.result = fd) :
    Turn (.open flags pathname) a fs
      { lookup := Function.update fs.lookup pathname.bytes (some i)
        content := Function.update fs.content i []
        opened := Function.update fs.opened fd
          (some ⟨i, 0, opensToRead flags, opensToAppend flags⟩) }
  /-- What the requests that are for no regular file do is left open. -/
  | other {r : Received} (hop : r.op = none) (a : Answer) (fs fs' : ServerFiles) : Turn r a fs fs'

/-! ## A conversation -/

/-- The server takes all of `requests`, one after the other, and answers with `answers`. -/
inductive Conversation : List Byte → List Byte → ServerFiles → ServerFiles → Prop where
  | quiet (fs : ServerFiles) : Conversation [] [] fs fs
  | turn {requests answers : List Byte} {r : Received} {a : Answer} {fs fs₁ fs₂ : ServerFiles}
    (hrequest : decodeRequest requests = some r) (hanswer : a.IsFor r) (hturn : Turn r a fs fs₁)
    (hrest : Conversation (requests.drop ((net16 requests 4).toNat + r.dataSize)) answers fs₁ fs₂) :
    Conversation requests (a.bytes ++ answers) fs fs₂

end Ps2netfs

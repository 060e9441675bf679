import Ps2Client.Fsclient.Copy
import Ps2Client.History.Past
import Ps2Client.Ps2link.PosixHost
import Ps2Client.Ps2netfs.Server

/-!
# What a copy copies

The bytes on their way through a copy, as its two files see them.
-/

namespace Fsclient

open CMemory Network Utility Ps2netfs Posix
open Ps2link (Host HostCall PosixHost HostFiles)

/-- What a step read from the source. -/
def Step.received : Step → List Byte
  | .read _ _ data => data
  | _ => []

/-- What the destination took of the data of a step: as many of the first bytes as it says. -/
def Step.accepted : Step → List Byte
  | .write data result => data.take result.toNat
  | _ => []

/-- All that was read from the source, in order. -/
def received (steps : List Step) : List Byte := steps.flatMap Step.received

/-- All that the destination took, in order. -/
def accepted (steps : List Step) : List Byte := steps.flatMap Step.accepted

def Step.isRead : Step → Bool
  | .read .. => true
  | _ => false

def Step.isWrite : Step → Bool
  | .write .. => true
  | _ => false

/-- A read stores at most as many bytes as were asked for, and the buffer has room for them. -/
def FitsBuffer (steps : List Step) : Prop :=
  ∀ count result data, .read count result data ∈ steps → (data.length : Int) ≤ count ∧ count ≤ 28000

def Step.seekResult : Step → Option Int
  | .seekEnd result => some result
  | _ => none

/-- What the source said its length is; 0 when it was not asked. -/
def seekLength (steps : List Step) : Int := (steps.findSome? Step.seekResult).getD 0

/-- Every read got the next bytes of `file`. -/
def Consecutive (file : List Byte) : List Step → Prop :=
  History.Always fun before s => s.received <+: file.drop (received before).length

/-! ## Local files -/

variable {σ : Type}

/-- An `open` with `O_CREAT` of `path`, while it leads nowhere, makes a new file there. Other names of
the same path may lead to it then. -/
def CreatesFile (h : Host σ) (view : σ → HostFiles) (path : List Byte) : Prop :=
  ∀ (st : σ) (flags mode : Word), (view st).lookup path = none → flags &&& O_CREAT ≠ 0 →
    (h.call (.open path flags mode) st).1 = (-1 : Int) ∨
    ∃ fd i : Nat, fd < 2 ^ 31 ∧ (h.call (.open path flags mode) st).1 = (fd : Int) ∧
      let fs := view (h.call (.open path flags mode) st).2
      fs.lookup path = some i ∧ fs.content = Function.update (view st).content i [] ∧
        fs.opened = (HostFiles.open (view st) i flags fd).opened

/-! ## Copies to a server and back -/

/-- All that was sent between `w` and `w'` was taken by the server, all that was received came from it,
and its files became `fs'`. -/
def Served (w w' : World σ) (fs fs' : ServerFiles) : Prop :=
  ∃ requests answers, w'.sock.sent = w.sock.sent ++ requests ∧
    w.sock.incoming = answers ++ w'.sock.incoming ∧ Conversation requests answers fs fs'

/-- `path` leads to a file with the bytes `content`. -/
def Holds (fs : ServerFiles) (path : CStr) (content : List Byte) : Prop :=
  ∃ i, fs.lookup path.bytes = some i ∧ fs.content i = content

/-- No file changed but the one that `path` leads to. -/
def OnlyChanged (path : CStr) (fs fs' : ServerFiles) : Prop :=
  ∀ i, fs'.lookup path.bytes ≠ some i → fs'.content i = fs.content i

end Fsclient

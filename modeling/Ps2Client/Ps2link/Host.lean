import Ps2Client.Network.Transfer
import Ps2Client.Utility.FixArguments

/-!
# The host and the state of the client

`ps2link.c` serves the requests of the ps2 by calls of the host's C library. The host is a
parameter: any state and any answers. A call is a value of `HostCall`, so that the calls a request
makes, with their arguments, can be recorded and compared.

The contents of uninitialised memory are also up to the host: of a local variable when its function
is entered, and of a fresh block when it is allocated.
-/

namespace Ps2link

open CMemory Network

/-- The fields of `struct stat` that the client reads. -/
structure Stat where
  mode : Word
  size : BitVec 64
  ctime : Int
  atime : Int
  mtime : Int
  deriving DecidableEq, Repr

/-- The fields of `struct tm` that the client reads. -/
structure Tm where
  year : Int
  mon : Int
  mday : Int
  hour : Int
  min : Int
  sec : Int
  deriving DecidableEq, Repr

def isDir (mode : Word) : Bool := mode &&& 0xF000 == 0x4000
def isLnk (mode : Word) : Bool := mode &&& 0xF000 == 0xA000
def isReg (mode : Word) : Bool := mode &&& 0xF000 == 0x8000

/-- A call of the host with its arguments. A directory stream is named by a number. -/
inductive HostCall where
  | «open» (path : List Byte) (flags mode : Word)
  | close (fd : Int)
  | read (fd : Int) (size : Nat)
  | write (fd : Int) (data : List Byte)
  | lseek (fd offset whence : Int)
  | stat (path : List Byte)
  | opendir (path : List Byte)
  | closedir (dir : Nat)
  | readdir (dir : Nat)
  | remove (path : List Byte)
  | mkdir (path : List Byte) (mode : Word)
  | rmdir (path : List Byte)
  | malloc (size : Nat)
  deriving DecidableEq, Repr

/-- What a call returns. `none` is the `-1` of `read` and `stat` and the null pointer of `opendir`,
`readdir` and `malloc`; a `read` otherwise returns the bytes it stored, a `malloc` the contents of
the block. -/
def HostCall.Result : HostCall → Type
  | .read .. | .readdir _ | .malloc _ => Option (List Byte)
  | .stat _ => Option Stat
  | .opendir _ => Option Nat
  | .open .. | .close _ | .write .. | .lseek .. | .closedir _ | .remove _ | .mkdir .. | .rmdir _ =>
    Int

/-- The result of a call that fails. -/
def HostCall.failure : (c : HostCall) → c.Result
  | .read .. | .readdir _ | .malloc _ | .stat _ | .opendir _ => none
  | .open .. | .close _ | .write .. | .lseek .. | .closedir _ | .remove _ | .mkdir .. | .rmdir _ =>
    (-1 : Int)

/-- A host with states in `σ`. -/
structure Host (σ : Type) where
  call : (c : HostCall) → σ → c.Result × σ
  timeMs : σ → Int × σ
  /-- `localtime`, with `none` for the null pointer. -/
  localtime : Int → Option Tm
  /-- The contents of an uninitialised local variable of the given size. -/
  uninit : Nat → σ → List Byte × σ
  /-- The contents of an uninitialised `struct stat`. -/
  uninitStat : σ → Stat × σ

/-- An entry of `ps2link_dd`. -/
structure Slot where
  pathname : Option (List Byte)
  dir : Option Nat
  deriving DecidableEq, Repr

/-- The client as the request thread sees it. -/
structure Client (σ : Type) where
  host : σ
  /-- The host calls made so far, in order. -/
  calls : List HostCall
  /-- `request_socket`. -/
  sock : Socket
  pingFd : Int
  pingAnswered : Bool
  dd : Fin 10 → Slot
  activity : Int
  lost : Bool
  /-- The process ran into a null pointer, or over the end of an array. -/
  crashed : Bool

/-- A host on which every call fails. -/
def failingHost : Host Unit where
  call c u := (c.failure, u)
  timeMs u := (0, u)
  localtime _ := none
  uninit size u := (List.replicate size 0, u)
  uninitStat u := (⟨0, 0, 0, 0, 0⟩, u)

variable {σ : Type}

/-- The client when the request thread starts. -/
def Client.initial (host : σ) (sock : Socket) : Client σ where
  host := host
  calls := []
  sock := sock
  pingFd := -1
  pingAnswered := false
  dd _ := ⟨none, none⟩
  activity := 0
  lost := false
  crashed := false

abbrev Client.call (h : Host σ) (c : HostCall) (s : Client σ) : c.Result × Client σ :=
  ((h.call c s.host).1, { s with host := (h.call c s.host).2, calls := s.calls ++ [c] })

abbrev Client.uninit (h : Host σ) (size : Nat) (s : Client σ) : List Byte × Client σ :=
  ((h.uninit size s.host).1, { s with host := (h.uninit size s.host).2 })

abbrev Client.uninitStat (h : Host σ) (s : Client σ) : Stat × Client σ :=
  ((h.uninitStat s.host).1, { s with host := (h.uninitStat s.host).2 })

/-- `network_send(request_socket, buffer, size)`. -/
abbrev Client.send (buffer : List Byte) (size : Int) (s : Client σ) : Int × Client σ :=
  ((networkSend s.sock buffer size).1, { s with sock := (networkSend s.sock buffer size).2 })

/-- `network_receive_all(request_socket, …, size)`. -/
abbrev Client.receiveAll (size : Int) (s : Client σ) : Int × List Byte × Client σ :=
  ((networkReceiveAll s.sock size).1, (networkReceiveAll s.sock size).2.1,
    { s with sock := (networkReceiveAll s.sock size).2.2 })

/-- `ps2link_set_activity`. -/
def setActivity (h : Host σ) (s : Client σ) : Client σ :=
  { s with host := (h.timeMs s.host).2, activity := (h.timeMs s.host).1 }

end Ps2link

import Ps2Client.Ps2link.Host
import Ps2Client.Ps2netfs.Commands

/-!
# `fsclient_copyfrom` and `fsclient_copyto`

The two functions have the same body. They differ in which of the two files is the remote one, in
what they check of a transfer, and in two of their messages, so the body is written once for any two
files and each function is a use of it.

The steps a copy takes, local and remote, are recorded with what they returned.
-/

namespace Fsclient

open CMemory Network Utility Ps2netfs
open Ps2link (Host HostCall)

/-! ## Steps and output -/

/-- A step of a copy and its result. A `read` also has what it stored in the buffer, a `write` what
it was given. -/
inductive Step where
  | openSource (fd : Int)
  | seekEnd (result : Int)
  | seekSet (result : Int)
  | openDestination (fd : Int)
  | read (count result : Int) (data : List Byte)
  | write (data : List Byte) (result : Int)
  | closeSource (fd result : Int)
  | closeDestination (fd result : Int)
  deriving DecidableEq, Repr

/-- An argument of `printf`. -/
inductive Arg where
  | int (n : Int)
  | string (s : CStr)
  deriving DecidableEq, Repr

/-- A call of `printf`. -/
structure Printed where
  format : String
  args : List Arg
  deriving DecidableEq, Repr

/-- The state of a copy: the rest of the world, and what the copy did so far. -/
structure Run (μ : Type) where
  world : μ
  steps : List Step
  out : List Printed

variable {μ : Type}

def Run.printf (r : Run μ) (format : String) (args : List Arg) : Run μ :=
  { r with out := r.out ++ [⟨format, args⟩] }

/-- Take a step that returns an integer. -/
def Run.take (r : Run μ) (op : μ → Int × μ) (step : Int → Step) : Int × Run μ :=
  ((op r.world).1,
    { r with world := (op r.world).2, steps := r.steps ++ [step (op r.world).1] })

/-- Take a step that also stores bytes. -/
def Run.takeRead (r : Run μ) (op : μ → Int × List Byte × μ) (count : Int) :
    Int × List Byte × Run μ :=
  ((op r.world).1, (op r.world).2.1,
    { r with
      world := (op r.world).2.2
      steps := r.steps ++ [.read count (op r.world).1 (op r.world).2.1] })

/-! ## The body of the two functions -/

/-- The source and the destination of a copy. -/
structure Ends (μ : Type) where
  openSource : μ → Int × μ
  seekEnd : (fd : Int) → μ → Int × μ
  seekSet : (fd : Int) → μ → Int × μ
  openDestination : μ → Int × μ
  read : (fd count : Int) → μ → Int × List Byte × μ
  write : (fd : Int) → (data : List Byte) → μ → Int × μ
  closeSource : (fd : Int) → μ → Int × μ
  closeDestination : (fd : Int) → μ → Int × μ
  /-- A `read` that returns more than it was asked for is an error. -/
  checksRead : Bool
  /-- A `write` that returns more than it was given is an error. -/
  checksWrite : Bool
  readFailed : Int → Printed
  writeFailed : Int → Printed

variable (E : Ends μ)

/-- The inner loop: `sent` of the `bytes` in the buffer have been written. It ends with false when
it goes to `done`. -/
def writeLoop (fd : Int) (buffer : List Byte) (bytes sent : Int) (r : Run μ) : Bool × Run μ :=
  if sent < bytes then
    let data := peek buffer sent.toNat (bytes - sent).toNat
    let w := r.take (E.write fd data) (.write data)
    let written := toInt32 w.1
    if written ≤ 0 ∨ (E.checksWrite = true ∧ bytes - sent < written) then
      (false, w.2.printf (E.writeFailed written).format (E.writeFailed written).args)
    else writeLoop fd buffer bytes (sent + written) w.2
  else (true, r)
termination_by (bytes - sent).toNat
decreasing_by
  simp +zetaDelta only at *
  omega

/-- `size - total < (int)sizeof(buffer) ? size - total : sizeof(buffer)` -/
def chunk (size total : Int) : Int := if size - total < 28000 then size - total else 28000

/-- The outer loop: whether it ended without going to `done`, and `total`. -/
def copyLoop (fd0 fd1 size total : Int) (r : Run μ) : Bool × Int × Run μ :=
  if total < size then
    let count := chunk size total
    let d := r.takeRead (E.read fd0 count) count
    let bytes := toInt32 d.1
    if bytes ≤ 0 ∨ (E.checksRead = true ∧ count < bytes) then
      (false, total, d.2.2.printf (E.readFailed bytes).format (E.readFailed bytes).args)
    else
      let w := writeLoop E fd1 d.2.1 bytes 0 d.2.2
      if w.1 then copyLoop fd0 fd1 size (total + bytes) (w.2.printf "#" []) else (false, total, w.2)
  else (true, total, r)
termination_by (size - total).toNat
decreasing_by
  simp +zetaDelta only at *
  omega

/-- The variables that live at the label `done`. -/
structure Locals where
  fd0 : Int := -1
  fd1 : Int := -1
  total : Int := 0
  status : Int := -1

/-- What comes before the label `done`. -/
def copyBody (source destination : CStr) (r : Run μ) : Locals × Run μ :=
  let f := r.take E.openSource .openSource
  let fd0 := f.1
  if fd0 < 0 then
    ({ fd0 := fd0 }, f.2.printf "Error: Open source file failed. (%d)\n" [.int fd0])
  else
    let n := f.2.take (E.seekEnd fd0) .seekEnd
    let size := toInt32 n.1
    if size < 0 then ({ fd0 := fd0 }, n.2.printf "Error: Get source file size failed.\n" []) else
    let z := n.2.take (E.seekSet fd0) .seekSet
    if z.1 < 0 then ({ fd0 := fd0 }, z.2.printf "Error: Get source file size failed.\n" []) else
    let g := z.2.take E.openDestination .openDestination
    let fd1 := g.1
    if fd1 < 0 then
      ({ fd0 := fd0, fd1 := fd1 },
        g.2.printf "Error: Open destination file failed. (%d)\n" [.int fd1])
    else
      let l := copyLoop E fd0 fd1 size 0
        (g.2.printf "\n [%s --> %s]\n\n  Progress: " [.string source, .string destination])
      ({ fd0 := fd0, fd1 := fd1, total := l.2.1, status := if l.1 then 0 else -1 }, l.2.2)

/-- `if (fd >= 0 && close(fd) < 0) { status = -1; }` -/
def closeEnd (fd : Int) (op : μ → Int × μ) (step : Int → Step) (s : Int × Run μ) : Int × Run μ :=
  if 0 ≤ fd then
    let c := s.2.take op step
    (if c.1 < 0 then -1 else s.1, c.2)
  else s

/-- What comes after the label `done`. -/
def copyDone (l : Locals) (r : Run μ) : Int × Run μ :=
  let s := closeEnd l.fd1 (E.closeDestination l.fd1) (.closeDestination l.fd1)
    (closeEnd l.fd0 (E.closeSource l.fd0) (.closeSource l.fd0) (l.status, r))
  (s.1, if s.1 = 0 then s.2.printf "\n\n [%d Bytes Copied]\n\n" [.int l.total] else s.2)

def copy (source destination : CStr) (world : μ) : Int × Run μ :=
  let b := copyBody E source destination ⟨world, [], []⟩
  copyDone E b.1 b.2

/-! ## Local and remote files -/

/-- The host and the connection to the server. -/
structure World (σ : Type) where
  host : σ
  sock : Socket

variable {σ : Type} (e : Endian) (h : Host σ)

/-- A call of the host's C library. -/
def hostCall (c : HostCall) (w : World σ) : c.Result × World σ :=
  ((h.call c w.host).1, { w with host := (h.call c w.host).2 })

/-- `read`: the number of bytes, or -1, and the bytes. -/
def hostRead (fd count : Int) (w : World σ) : Int × List Byte × World σ :=
  let r := hostCall h (.read fd count.toNat) w
  match (r.1 : Option (List Byte)) with
  | none => (-1, [], r.2)
  | some data => (data.length, data, r.2)

/-- A `ps2netfs_command_*` function, with what its packet finds on the stack. -/
def command (c : Command) (w : World σ) : Int × List Byte × World σ :=
  let stack := h.uninit (6 + sizeof c.fields) w.host
  let r := c.call e stack.1 w.sock
  (r.1, r.2.1, ⟨stack.2, r.2.2⟩)

/-- A `ps2netfs_command_*` function that stores nothing. -/
def commandResult (c : Command) (w : World σ) : Int × World σ :=
  ((command e h c w).1, (command e h c w).2.2)

def OPEN_READ : Word := 0x0001
def OPEN_WRITE : Word := 0x0002
def OPEN_CREATE : Word := 0x0200
def OPEN_TRUNCATE : Word := 0x0400

def LSEEK_SET : Word := 0x0000
def LSEEK_END : Word := 0x0002

/-- The remote file `source`, and the local file `destination`. -/
def copyfromEnds (source destination : CStr) : Ends (World σ) where
  openSource := commandResult e h (.open (some source) OPEN_READ)
  seekEnd fd := commandResult e h (.lseek (.ofInt 32 fd) 0 LSEEK_END)
  seekSet fd := commandResult e h (.lseek (.ofInt 32 fd) 0 LSEEK_SET)
  openDestination := hostCall h (.open destination.bytes (O_WRONLY ||| O_CREAT ||| O_TRUNC) 0o644)
  read fd count := command e h (.read (.ofInt 32 fd) (.ofInt 32 count))
  write fd data := hostCall h (.write fd data)
  closeSource fd := commandResult e h (.close (.ofInt 32 fd))
  closeDestination fd := hostCall h (.close fd)
  checksRead := true
  checksWrite := false
  readFailed bytes := ⟨"Error: Unexpected source read result. (%d)\n", [.int bytes]⟩
  writeFailed _ := ⟨"Error: Local file write failed.\n", []⟩

/-- The local file `source`, and the remote file `destination`. -/
def copytoEnds (source destination : CStr) : Ends (World σ) where
  openSource := hostCall h (.open source.bytes O_RDONLY 0)
  seekEnd fd := hostCall h (.lseek fd 0 2)
  seekSet fd := hostCall h (.lseek fd 0 0)
  openDestination :=
    commandResult e h (.open (some destination) (OPEN_WRITE ||| OPEN_CREATE ||| OPEN_TRUNCATE))
  read fd count := hostRead h fd count
  write fd data :=
    commandResult e h (.write (.ofInt 32 fd) (.ofNat 32 data.length) data)
  closeSource fd := hostCall h (.close fd)
  closeDestination fd := commandResult e h (.close (.ofInt 32 fd))
  checksRead := false
  checksWrite := true
  readFailed bytes := ⟨"Error: Local file read failed. (%d)\n", [.int bytes]⟩
  writeFailed written := ⟨"Error: Remote file write failed. (%d)\n", [.int written]⟩

/-- `fsclient_copyfrom` -/
def copyfrom (source destination : CStr) (w : World σ) : Int × Run (World σ) :=
  copy (copyfromEnds e h source destination) source destination w

/-- `fsclient_copyto` -/
def copyto (source destination : CStr) (w : World σ) : Int × Run (World σ) :=
  copy (copytoEnds e h source destination) source destination w

end Fsclient

import Ps2Client.Posix.Files
import Ps2Client.Ps2link.Framing

/-!
# POSIX hosts

What a host whose C library follows POSIX does with its regular files. How many bytes a `read` or a
`write` transfers, and whether an `open` succeeds, is still up to the host. Nobody but the client
changes the files.
-/

namespace Ps2link

open CMemory Network Utility Posix

/-- The regular files of the host, with the bytes of their paths. -/
abbrev HostFiles := Files (List Byte) Nat Byte

/-- `O_ACCMODE` -/
def O_ACCMODE : Word := 0x0003

/-- The files after `open` gave the descriptor `fd` for the file `i`. -/
def HostFiles.open (fs : HostFiles) (i : Nat) (flags : Word) (fd : Int) : HostFiles :=
  Files.open fs i fd (flags &&& O_ACCMODE != O_WRONLY) (flags &&& O_APPEND != 0)
    (flags &&& O_TRUNC != 0)

/-- The calls of the host `h` act on its files, which `view` gives, as POSIX says. -/
structure PosixHost {σ : Type} (h : Host σ) (view : σ → HostFiles) : Prop where
  lseek : ∀ {st fd f} (offset whence : Int), (view st).opened fd = some f →
    (h.call (.lseek fd offset whence) st).1 = ((view st).lseek fd offset whence).1 ∧
      view (h.call (.lseek fd offset whence) st).2 = ((view st).lseek fd offset whence).2
  /-- A `read` transfers nothing only when it is asked for nothing, or at the end of the file. -/
  read : ∀ {st fd f} (size : Nat), (view st).opened fd = some f → f.readable = true →
    ∃ n ≤ size, (n = 0 → size = 0 ∨ ((view st).content f.inode).length ≤ f.position) ∧
      (h.call (.read fd size) st).1 = some ((view st).read fd n).1 ∧
      view (h.call (.read fd size) st).2 = ((view st).read fd n).2
  write : ∀ {st fd f} (data : List Byte), (view st).opened fd = some f →
    (h.call (.write fd data) st).1 = (-1 : Int) ∧ view (h.call (.write fd data) st).2 = view st ∨
    ∃ n ≤ data.length, (h.call (.write fd data) st).1 = (n : Int) ∧
      view (h.call (.write fd data) st).2 = (view st).write fd (data.take n)
  /-- POSIX leaves open what `O_TRUNC` does without write access. -/
  «open» : ∀ {st path i flags} (mode : Word), (view st).lookup path = some i →
    flags &&& O_TRUNC = 0 ∨ flags &&& O_ACCMODE ≠ O_RDONLY →
    (h.call (.open path flags mode) st).1 = (-1 : Int) ∨
    ∃ fd : Nat, fd < 2 ^ 31 ∧ (h.call (.open path flags mode) st).1 = (fd : Int) ∧
      view (h.call (.open path flags mode) st).2 = HostFiles.open (view st) i flags fd
  close : ∀ (fd : Int) (st : σ), view (h.call (.close fd) st).2 = (view st).close fd
  stat : ∀ (path : List Byte) (st : σ), view (h.call (.stat path) st).2 = view st
  malloc : ∀ (size : Nat) (st : σ), view (h.call (.malloc size) st).2 = view st
  uninit : ∀ (size : Nat) (st : σ), view (h.uninit size st).2 = view st
  timeMs : ∀ st : σ, view (h.timeMs st).2 = view st

/-- A POSIX host for a process with one descriptor, which transfers all it is asked for. -/
def fileHost : Host HostFiles where
  call c fs := match c with
    | .lseek fd offset whence => fs.lseek fd offset whence
    | .read fd size =>
      match fs.opened fd with
      | some f => if f.readable then (some (fs.read fd size).1, (fs.read fd size).2) else (none, fs)
      | none => (none, fs)
    | .write fd data =>
      match fs.opened fd with
      | some _ => ((data.length : Int), fs.write fd data)
      | none => ((-1 : Int), fs)
    | .open path flags _ =>
      if fs.opened 3 ≠ none then ((-1 : Int), fs) else
      match fs.lookup path with
      | some i => ((3 : Int), HostFiles.open fs i flags 3)
      | none => ((-1 : Int), fs)
    | .close fd => ((0 : Int), fs.close fd)
    | .stat path =>
      ((fs.lookup path).map fun i => ⟨0x81A4, .ofNat 64 (fs.content i).length, 0, 0, 0⟩, fs)
    | .malloc size => (some (List.replicate size 0), fs)
    | c => (c.failure, fs)
  timeMs fs := (0, fs)
  localtime _ := none
  uninit size fs := (List.replicate size 0, fs)
  uninitStat fs := (⟨0, 0, 0, 0, 0⟩, fs)

end Ps2link

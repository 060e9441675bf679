import Mathlib.Algebra.Ring.Int.Defs
import Mathlib.Logic.Function.Basic
import Mathlib.Tactic.Common

/-!
# Regular files and their descriptors

What POSIX says of `open`, `read`, `write`, `lseek` and `close` on regular files, with a 64-bit
`off_t`. A file is known by its inode, so that several paths and several descriptors may lead to it.
-/

namespace Posix

/-- What a descriptor of a regular file stands for. -/
structure OpenFile (Inode : Type) where
  inode : Inode
  position : Nat
  readable : Bool
  append : Bool
  deriving DecidableEq, Repr

/-- The regular files of a host and the descriptors of a process. -/
structure Files (Path Inode α : Type) where
  lookup : Path → Option Inode
  content : Inode → List α
  opened : Int → Option (OpenFile Inode)

def SEEK_SET : Int := 0
def SEEK_CUR : Int := 1
def SEEK_END : Int := 2

/-- The largest `off_t`. -/
def OFF_MAX : Int := 2 ^ 63 - 1

variable {Path Inode α : Type}

/-- The descriptor `fd` at another position. -/
def Files.moveTo (fs : Files Path Inode α) (fd : Int) (f : OpenFile Inode) (position : Nat) :
    Files Path Inode α :=
  { fs with opened := Function.update fs.opened fd (some { f with position := position }) }

/-- Where `lseek` counts from. -/
def Files.base (fs : Files Path Inode α) (f : OpenFile Inode) (whence : Int) : Option Nat :=
  if whence = SEEK_SET then some 0
  else if whence = SEEK_CUR then some f.position
  else if whence = SEEK_END then some (fs.content f.inode).length
  else none

/-- `lseek`, which fails without effect when there is no such position. -/
def Files.lseek (fs : Files Path Inode α) (fd offset whence : Int) : Int × Files Path Inode α :=
  match fs.opened fd with
  | none => (-1, fs)
  | some f =>
    match fs.base f whence with
    | none => (-1, fs)
    | some base =>
      if base + offset < 0 ∨ OFF_MAX < base + offset then (-1, fs)
      else (base + offset, fs.moveTo fd f (base + offset).toNat)

/-- A `read` that transfers at most `count` bytes. -/
def Files.read (fs : Files Path Inode α) (fd : Int) (count : Nat) :
    List α × Files Path Inode α :=
  match fs.opened fd with
  | none => ([], fs)
  | some f =>
    let data := ((fs.content f.inode).drop f.position).take count
    (data, fs.moveTo fd f (f.position + data.length))

/-- `data` written at a position of a file. A gap before it is filled. -/
def splice [Inhabited α] (c : List α) (position : Nat) (data : List α) : List α :=
  (c ++ List.replicate (position - c.length) default).take position ++ data ++
    c.drop (position + data.length)

/-- A `write` that transfers all of `data`. -/
def Files.write [Inhabited α] [DecidableEq Inode] (fs : Files Path Inode α) (fd : Int)
    (data : List α) : Files Path Inode α :=
  match fs.opened fd with
  | none => fs
  | some f =>
    let c := fs.content f.inode
    let position := if f.append then c.length else f.position
    { fs.moveTo fd f (position + data.length) with
      content := Function.update fs.content f.inode (splice c position data) }

/-- An `open` of the existing file `i` that gives the descriptor `fd`. -/
def Files.open [DecidableEq Inode] (fs : Files Path Inode α) (i : Inode) (fd : Int)
    (readable append truncate : Bool) : Files Path Inode α where
  lookup := fs.lookup
  content := if truncate then Function.update fs.content i [] else fs.content
  opened := Function.update fs.opened fd (some ⟨i, 0, readable, append⟩)

def Files.close (fs : Files Path Inode α) (fd : Int) : Files Path Inode α :=
  { fs with opened := Function.update fs.opened fd none }

end Posix

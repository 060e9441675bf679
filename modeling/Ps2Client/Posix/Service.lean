import Mathlib.Data.List.Basic
import Ps2Client.Posix.Files

/-!
# A file service

What a server of the regular files of a host may do for a client, one operation after the other. It may
refuse an `open` or a `write`, and a transfer may be short; but what it says it has done, it has done.
-/

namespace Posix

inductive Op (Path α : Type) where
  | «open» (path : Path) (readable append truncate : Bool)
  | close (fd : Int)
  | read (fd : Int) (size : Nat)
  | write (fd : Int) (data : List α)
  | lseek (fd offset whence : Int)

inductive Reply (α : Type) where
  | result (n : Int)
  | data (bytes : List α)

variable {Path Inode α : Type} [DecidableEq Inode] [Inhabited α]

/-- What the server may answer to an operation, and what it makes of the files. -/
inductive Serves : Op Path α → Reply α → Files Path Inode α → Files Path Inode α → Prop where
  | notOpened (path : Path) (readable append truncate : Bool) (fs : Files Path Inode α) :
    Serves (.open path readable append truncate) (.result (-1)) fs fs
  | notWritten (fd : Int) (data : List α) (fs : Files Path Inode α) :
    Serves (.write fd data) (.result (-1)) fs fs
  | opened {fs : Files Path Inode α} {path : Path} {i : Inode} (readable append truncate : Bool)
    (fd : Nat) (hpath : fs.lookup path = some i) :
    Serves (.open path readable append truncate) (.result fd) fs
      (fs.open i fd readable append truncate)
  | closed (fd n : Int) (fs : Files Path Inode α) : Serves (.close fd) (.result n) fs (fs.close fd)
  /-- A `read` transfers nothing only when it is asked for nothing, or at the end of the file. -/
  | read {fs : Files Path Inode α} {fd : Int} {f : OpenFile Inode} {size : Nat} (n : Nat)
    (hopened : fs.opened fd = some f) (hreadable : f.readable = true) (hn : n ≤ size)
    (hend : n = 0 → size = 0 ∨ (fs.content f.inode).length ≤ f.position) :
    Serves (.read fd size) (.data (fs.read fd n).1) fs (fs.read fd n).2
  | written {fs : Files Path Inode α} {fd : Int} {f : OpenFile Inode} {data : List α} (n : Nat)
    (hopened : fs.opened fd = some f) (hn : n ≤ data.length) :
    Serves (.write fd data) (.result n) fs (fs.write fd (data.take n))
  | sought (fd offset whence : Int) (fs : Files Path Inode α) :
    Serves (.lseek fd offset whence) (.result (fs.lseek fd offset whence).1) fs
      (fs.lseek fd offset whence).2

/-- A run of operations with their answers. -/
inductive Runs : List (Op Path α × Reply α) → Files Path Inode α → Files Path Inode α → Prop where
  | nil (fs : Files Path Inode α) : Runs [] fs fs
  | cons {op : Op Path α} {reply : Reply α} {rest : List (Op Path α × Reply α)}
    {fs fs₁ fs₂ : Files Path Inode α} (hserves : Serves op reply fs fs₁) (hrest : Runs rest fs₁ fs₂) :
    Runs ((op, reply) :: rest) fs fs₂

/-- The operation may change the content of the file `i`. -/
def Op.Touches (fs : Files Path Inode α) (i : Inode) : Op Path α → Prop
  | .open path _ _ truncate => truncate = true ∧ fs.lookup path = some i
  | .write fd _ => ∃ f, fs.opened fd = some f ∧ f.inode = i
  | .close _ | .read .. | .lseek .. => False

/-! ## Sessions -/

/-- A file is opened and truncated, `chunks` are written to it, each whole, and it is closed. -/
def upload (path : Path) (readable append : Bool) (fd n : Int) (chunks : List (List α)) :
    List (Op Path α × Reply α) :=
  (.open path readable append true, .result fd) ::
    (chunks.map (fun chunk => (.write fd chunk, .result chunk.length)) ++ [(.close fd, .result n)])

/-- A file is opened, and read until there is nothing more; each `read` has a size and its answer. -/
def download (path : Path) (readable append : Bool) (fd : Int) (reads : List (Nat × List α))
    (last : Nat) : List (Op Path α × Reply α) :=
  (.open path readable append false, .result fd) ::
    (reads.map (fun r => (.read fd r.1, .data r.2)) ++ [(.read fd last, .data [])])

end Posix

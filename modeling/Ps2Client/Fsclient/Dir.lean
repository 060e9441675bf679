import Ps2Client.CMemory.Bounded
import Ps2Client.Fsclient.Copy
import Ps2Client.Ps2netfs.Proofs.CommandsProofs

/-!
# `fsclient_dir`

The entries of a directory are read one after the other until `ps2netfs_command_dread` returns no
positive number. A `DIRENT` is the 296 bytes of the struct, with its integers in network byte order.
-/

namespace Fsclient

open CMemory Network Ps2netfs
open Ps2link (Host)

variable {σ : Type} (e : Endian) (h : Host σ)

/-! ## An entry -/

/-- `ntohl(dirent.mode)` -/
def mode (dirent : List Byte) : Word := ntohl e (load32 e dirent 0)

/-- `ntohl(dirent.size)` -/
def size (dirent : List Byte) : Word := ntohl e (load32 e dirent 8)

/-- `dirent.mtime[k]`, on a host where `char` is signed. -/
def mtime (dirent : List Byte) (k : Nat) : Int := (byteAt dirent (28 + k)).toInt

/-- `dirent.name`, up to the end of the struct. -/
def name (dirent : List Byte) : List Byte := dirent.drop 40

/-- The first letter of the mode information. -/
def fileType (mode : Word) : Printed :=
  if mode &&& 0x4000 ≠ 0 then ⟨"l", []⟩ else
  if mode &&& 0x2000 ≠ 0 then ⟨"-", []⟩ else
  if mode &&& 0x1000 ≠ 0 then ⟨"d", []⟩ else ⟨"-", []⟩

/-- The bits of the mode behind it, with their letters. -/
def permissions : List (Word × String) :=
  [(0x0100, "r"), (0x0080, "w"), (0x0040, "x"), (0x0020, "r"), (0x0010, "w"), (0x0008, "x"),
   (0x0004, "r"), (0x0002, "w"), (0x0001, "x")]

def permission (mode : Word) (p : Word × String) : Printed :=
  if mode &&& p.1 ≠ 0 then ⟨p.2, []⟩ else ⟨"-", []⟩

/-- What the body of the loop prints. There is no result when the name has no end. -/
def entryLine (dirent : List Byte) : Option (List Printed) :=
  (string? (name dirent)).map fun name =>
    ⟨"  ", []⟩ :: fileType (mode e dirent) :: permissions.map (permission (mode e dirent)) ++
      [⟨" %10d", [.int (size e dirent).toInt]⟩,
       ⟨" %02d-%02d-%04d",
        [.int (mtime dirent 5), .int (mtime dirent 4), .int (2048 + mtime dirent 6)]⟩,
       ⟨" %02d:%02d:%02d",
        [.int (mtime dirent 3), .int (mtime dirent 2), .int (mtime dirent 1)]⟩,
       ⟨" %s\n", [.string name]⟩]

/-! ## The loop -/

/-- `ps2netfs_command_dread(dd, &dirent)` -/
def dread (dd : Int) (w : World σ) : Int × List Byte × World σ :=
  command e h (.dread (.ofInt 32 dd)) w

/-- An entry was received, and taken off the stream. -/
theorem dread_pos {dd : Int} {w : World σ} (hpos : 0 < (dread e h dd w).1) :
    (dread e h dd w).2.2.sock.incoming.length < w.sock.incoming.length := by
  obtain ⟨pre, hpre, hlength⟩ := call_incoming e (.dread (.ofInt 32 dd))
    (h.uninit (6 + sizeof (Command.dread (.ofInt 32 dd)).fields) w.host).1 w.sock
  have hresponse : 306 ≤ pre.length := hlength (Int.not_lt.mpr (Int.le_of_lt hpos))
  have hsum := congrArg List.length hpre
  rw [List.length_append] at hsum
  show (Socket.incoming (Command.call e _ _ w.sock).2.2).length < _
  omega

/-- The loop: `files`, `size` and what it printed, at its end. There is no result when a name has no
end or the number of files is no `int`; the total is computed without a sign, and wraps around. -/
def dirLoop (dd files total : Int) (w : World σ) : Option (Int × Int × List Printed × World σ) :=
  let r := dread e h dd w
  if _ : 0 < r.1 then
    match entryLine e r.2.1, int? (files + 1) with
    | some line, some files =>
      (dirLoop dd files (toInt32 (total + (size e r.2.1).toNat)) r.2.2).map
        fun (files, total, out, w) => (files, total, line ++ out, w)
    | _, _ => none
  else some (files, total, [], r.2.2)
termination_by w.sock.incoming.length
decreasing_by exact dread_pos e h ‹_›

/-- `fsclient_dir`: what it returns and what it prints. -/
def dir (pathname : CStr) (w : World σ) : Option (Int × List Printed × World σ) :=
  let d := commandResult e h (.dopen (some pathname) 0) w
  if d.1 < 0 then
    some (-1, [⟨"Error: Open directory failed. (%d)\n", [.int d.1]⟩], d.2)
  else match dirLoop e h d.1 0 0 d.2 with
    | none => none
    | some (files, total, lines, w) =>
      let out := ⟨"\n [Contents of %s]\n\n", [.string pathname]⟩ :: lines ++
        [⟨"\n [%d Files - %d Bytes]\n\n", [.int files, .int total]⟩]
      let c := commandResult e h (.dclose (.ofInt 32 d.1)) w
      if c.1 < 0 then
        some (-1, out ++ [⟨"Error: Close directory failed. (%d)\n", [.int c.1]⟩], c.2)
      else some (0, out, c.2)

/-! ## The listing -/

/-- The responses from `w` on: the entries with a positive result, then the first result that is
none. -/
inductive Listed (dd : Int) : World σ → List (List Byte) → Int → World σ → Prop where
  | last {w : World σ} (hend : ¬ 0 < (dread e h dd w).1) :
    Listed dd w [] (dread e h dd w).1 (dread e h dd w).2.2
  | entry {w w' : World σ} {entries : List (List Byte)} {last : Int}
    (hpos : 0 < (dread e h dd w).1) (hrest : Listed dd (dread e h dd w).2.2 entries last w') :
    Listed dd w ((dread e h dd w).2.1 :: entries) last w'

/-- The exact number of bytes. -/
def totalSize : List (List Byte) → Nat
  | [] => 0
  | dirent :: entries => (size e dirent).toNat + totalSize entries

/-- `fsclient_dir` lists the entries and nothing else, with their number and the sum of their sizes,
and returns 0 only when the last response was the end of the directory and it was closed. -/
def ListsExactly (pathname : CStr) (entries : List (List Byte)) (last closed : Int)
    (run : Option (Int × List Printed × World σ)) : Prop :=
  ∃ status out w, ∃ lines : List (List Printed), run = some (status, out, w) ∧
    entries.map (entryLine e) = lines.map some ∧
    out = ⟨"\n [Contents of %s]\n\n", [.string pathname]⟩ :: lines.flatten ++
      ⟨"\n [%d Files - %d Bytes]\n\n", [.int entries.length, .int (totalSize e entries)]⟩ ::
      (if closed < 0 then [⟨"Error: Close directory failed. (%d)\n", [.int closed]⟩] else []) ∧
    (status = 0 → last = 0 ∧ 0 ≤ closed)

end Fsclient

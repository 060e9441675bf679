import Ps2Client.CMemory.Proofs.CStringProofs

/-!
# `fix_flags` and `fix_pathname`

The two functions of `utility.c` that turn the arguments of a request into arguments of host calls.
-/

namespace Utility

open CMemory

/-! ## Open flags

The values of `fcntl.h` on Linux. -/

def O_RDONLY : Word := 0x0000
def O_WRONLY : Word := 0x0001
def O_RDWR : Word := 0x0002
def O_CREAT : Word := 0x0040
def O_TRUNC : Word := 0x0200
def O_APPEND : Word := 0x0400
def O_NONBLOCK : Word := 0x0800

/-- `if (flags & bit) { result |= value; }` -/
def addFlag (flags bit value result : Word) : Word :=
  if flags &&& bit ≠ 0 then result ||| value else result

/-- The access mode: the low two bits of the flags. -/
def accessMode (flags : Word) : Word :=
  match (flags &&& 0x0003).toNat with
  | 1 => O_RDONLY
  | 2 => O_WRONLY ||| O_TRUNC
  | 3 => O_RDWR
  | _ => 0

/-- `fix_flags`. -/
def fixFlags (flags : Word) : Word :=
  addFlag flags 0x0400 O_TRUNC <| addFlag flags 0x0200 O_CREAT <|
    addFlag flags 0x0100 O_APPEND <| addFlag flags 0x0010 O_NONBLOCK <| accessMode flags

/-! ## Path names -/

/-- The first loop of `fix_pathname`: convert `\` to `/`. -/
def convertLoop (p : List Byte) (i : Nat) : List Byte :=
  if h : i < strlen p then
    convertLoop (if byteAt p i = ascii '\\' then p.set i (ascii '/') else p) (i + 1)
  else p
termination_by p.length - i
decreasing_by
  have := strlen_le_length p
  split
  · rw [List.length_set]
    omega
  · omega

/-- The second loop of `fix_pathname`: move everything one place to the front. It runs on a string
of at least two bytes, so that the unsigned `strlen(pathname)-1` does not wrap. -/
def shiftLoop (p : List Byte) (i : Nat) : List Byte × Nat :=
  if h : i < strlen p - 1 then shiftLoop (p.set i (byteAt p (i + 1))) (i + 1) else (p, i)
termination_by p.length - i
decreasing_by
  have := strlen_le_length p
  simp only [List.length_set]
  omega

/-- `fix_pathname`, on the memory from `pathname` on. -/
def fixPathname (p : List Byte) : List Byte :=
  let p := if byteAt p 0 = 0 then poke p 0 [ascii '.', 0] else p
  let p := convertLoop p 0
  if byteAt p 0 = ascii '/' ∧ byteAt p 1 ≠ 0 then
    let (p, i) := shiftLoop p 0
    p.set i 0
  else p

/-! ## What the path becomes -/

/-- `\` becomes `/`, every other byte stays. -/
def convertByte (c : Byte) : Byte := if c = ascii '\\' then ascii '/' else c

/-- The host path for a requested path: `.` for the empty path, slashes for backslashes, and no
leading slash unless it is the whole path. -/
def hostPath (s : List Byte) : List Byte :=
  let s := if s = [] then [ascii '.'] else s.map convertByte
  if s.head? = some (ascii '/') ∧ 1 < s.length then s.tail else s

end Utility

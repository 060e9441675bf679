import Ps2Client.CMemory.Struct

/-!
# `fix_argv`

The function of `utility.c` that packs the arguments of a program into a packet. Lengths are C
`int`s there; the arguments come from the command line, whose total size the system keeps far below
`2 ^ 31`.
-/

namespace Utility

open CMemory

/-- The loop of `fix_argv`: `used` bytes of the destination are taken. -/
def fixArgvLoop (size : Nat) : List CStr → List Byte → Nat → Int × List Byte
  | [], destination, used => (0, poke destination used (List.replicate (size - used) 0))
  | a :: argv, destination, used =>
    let length := a.length + 1
    if size < used + length then (-1, destination)
    else fixArgvLoop size argv (poke destination used (a.bytes ++ [0])) (used + length)

/-- `fix_argv`: the result and the destination. -/
def fixArgv (destination : List Byte) (size : Nat) (argv : List CStr) : Int × List Byte :=
  fixArgvLoop size argv destination 0

/-! ## What the arguments become -/

/-- The arguments one after the other, each with its null. -/
def joined (argv : List CStr) : List Byte := argv.flatMap fun a => a.bytes ++ [0]

/-- Split `n` null-terminated strings off a memory area: the strings and what follows them. -/
def splitStrings : Nat → List Byte → Option (List (List Byte) × List Byte)
  | 0, m => some ([], m)
  | n + 1, m =>
    if 0 ∈ m then
      (splitStrings n (m.drop (strlen m + 1))).map fun (strings, rest) => (cstr m :: strings, rest)
    else none

end Utility

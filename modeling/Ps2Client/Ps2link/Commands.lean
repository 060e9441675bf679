import Ps2Client.Network.Transfer
import Ps2Client.Utility.FixArgv

/-!
# The commands of ps2link

The `ps2link_command_*` functions build a packet on the stack and send it to the command port. Only
`execiop` and `execee` can fail before that, when their arguments do not fit the packet.
-/

namespace Ps2link

open CMemory Network Utility

/-! ## Packet numbers -/

def COMMAND_RESET : Word := 0xBABE0201
def COMMAND_EXECIOP : Word := 0xBABE0202
def COMMAND_EXECEE : Word := 0xBABE0203
def COMMAND_POWEROFF : Word := 0xBABE0204
def COMMAND_SCRDUMP : Word := 0xBABE0205
def COMMAND_NETDUMP : Word := 0xBABE0206
def COMMAND_DUMPMEM : Word := 0xBABE0207
def COMMAND_STARTVU : Word := 0xBABE0208
def COMMAND_STOPVU : Word := 0xBABE0209
def COMMAND_DUMPREG : Word := 0xBABE020A
def COMMAND_GSEXEC : Word := 0xBABE020B
def COMMAND_WRITEMEM : Word := 0xBABE020C
def COMMAND_IOPEXCEP : Word := 0xBABE020D

/-! ## Packets -/

/-- A call of a command function with its arguments. A file name is a pointer and may be null. -/
inductive Command where
  | reset
  | execiop (argc : Word) (argv : List CStr)
  | execee (argc : Word) (argv : List CStr)
  | poweroff
  | scrdump
  | netdump
  | dumpmem (offset size : Word) (pathname : Option CStr)
  | startvu (vu : Word)
  | stopvu (vu : Word)
  | dumpreg (type : Word) (pathname : Option CStr)
  | gsexec (size : Half) (pathname : Option CStr)
  | writemem (offset size : Word) (pathname : Option CStr)
  | iopexcep
  deriving DecidableEq, Repr

def Command.number : Command → Word
  | .reset => COMMAND_RESET
  | .execiop .. => COMMAND_EXECIOP
  | .execee .. => COMMAND_EXECEE
  | .poweroff => COMMAND_POWEROFF
  | .scrdump => COMMAND_SCRDUMP
  | .netdump => COMMAND_NETDUMP
  | .dumpmem .. => COMMAND_DUMPMEM
  | .startvu _ => COMMAND_STARTVU
  | .stopvu _ => COMMAND_STOPVU
  | .dumpreg .. => COMMAND_DUMPREG
  | .gsexec .. => COMMAND_GSEXEC
  | .writemem .. => COMMAND_WRITEMEM
  | .iopexcep => COMMAND_IOPEXCEP

/-- `fix_argv(command.argv, sizeof(command.argv), argv)`, on the packet at the start of `stack`. -/
def packArgv (argv : List CStr) (stack : List Byte) : Int × List Byte :=
  fixArgv (peek stack 10 256) 256 argv

/-- The fields of the packet after `number` and `length`, in the order of the struct. -/
def Command.fields (c : Command) (stack : List Byte) : List Field :=
  match c with
  | .reset | .poweroff | .scrdump | .netdump | .iopexcep => []
  | .execiop argc argv | .execee argc argv => [.word argc, .filled (packArgv argv stack).2]
  | .dumpmem offset size pathname | .writemem offset size pathname =>
    [.word offset, .word size, .text pathname]
  | .startvu vu | .stopvu vu => [.word vu]
  | .dumpreg type pathname => [.word type, .text pathname]
  | .gsexec size pathname => [.half size, .text pathname]

/-- The strings of a command that are copied by `snprintf`. -/
def Command.strings : Command → List (Option CStr)
  | .dumpmem _ _ pathname | .dumpreg _ pathname | .gsexec _ pathname | .writemem _ _ pathname =>
    [pathname]
  | .reset | .execiop .. | .execee .. | .poweroff | .scrdump | .netdump | .startvu _ | .stopvu _
  | .iopexcep => []

/-- The packet of a command, built in a variable with the contents `stack`. -/
def Command.packet (e : Endian) (c : Command) (stack : List Byte) : List Byte :=
  CMemory.packet e c.number (c.fields stack) stack

/-- The function returns -1 before it sends anything. -/
def Command.refused (c : Command) (stack : List Byte) : Bool :=
  match c with
  | .execiop _ argv | .execee _ argv => (packArgv argv stack).1 < 0
  | _ => false

/-- The command function. -/
def Command.call (e : Endian) (c : Command) (stack : List Byte) (s : Socket) : Int × Socket :=
  if c.refused stack then (-1, s)
  else networkSend s (c.packet e stack) (6 + sizeof (c.fields stack))

end Ps2link

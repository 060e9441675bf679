import Ps2Client.CMemory.Struct
import Ps2Client.Network.Transfer

/-!
# The commands of ps2netfs

The `ps2netfs_command_*` functions build a packet on the stack, send it, and receive the response.
They differ in the fields of the packet, the size of the response, and what they do with it.
-/

namespace Ps2netfs

open CMemory Network

/-! ## Packet numbers -/

def COMMAND_OPEN : Word := 0xBEEF8011
def COMMAND_CLOSE : Word := 0xBEEF8021
def COMMAND_READ : Word := 0xBEEF8031
def COMMAND_WRITE : Word := 0xBEEF8041
def COMMAND_LSEEK : Word := 0xBEEF8051
def COMMAND_DELETE : Word := 0xBEEF8071
def COMMAND_MKDIR : Word := 0xBEEF8081
def COMMAND_RMDIR : Word := 0xBEEF8091
def COMMAND_DOPEN : Word := 0xBEEF80A1
def COMMAND_DCLOSE : Word := 0xBEEF80B1
def COMMAND_DREAD : Word := 0xBEEF80C1
def COMMAND_SYNC : Word := 0xBEEF8031
def COMMAND_MOUNT : Word := 0xBEEF8041
def COMMAND_UMOUNT : Word := 0xBEEF8051
def COMMAND_DEVLIST : Word := 0xBEEF8F21

/-! ## Packets -/

/-- A call of a command function with its arguments. A string is a pointer and may be null. The
buffer of `write` is the memory it points to. -/
inductive Command where
  | «open» (pathname : Option CStr) (flags : Word)
  | close (fd : Word)
  | read (fd size : Word)
  | write (fd size : Word) (buffer : List Byte)
  | lseek (fd offset whence : Word)
  | delete (pathname : Option CStr) (flags : Word)
  | mkdir (pathname : Option CStr) (flags : Word)
  | rmdir (pathname : Option CStr) (flags : Word)
  | dopen (pathname : Option CStr) (flags : Word)
  | dclose (dd : Word)
  | dread (dd : Word)
  | sync (device : Option CStr) (flags : Word)
  | mount (device fsname : Option CStr) (flags : Word) (argv : Option CStr) (argc : Word)
  | umount (device : Option CStr) (flags : Word)
  | devlist (pathname : Option CStr) (flags : Word)
  deriving DecidableEq, Repr

def Command.number : Command → Word
  | .open .. => COMMAND_OPEN
  | .close _ => COMMAND_CLOSE
  | .read .. => COMMAND_READ
  | .write .. => COMMAND_WRITE
  | .lseek .. => COMMAND_LSEEK
  | .delete .. => COMMAND_DELETE
  | .mkdir .. => COMMAND_MKDIR
  | .rmdir .. => COMMAND_RMDIR
  | .dopen .. => COMMAND_DOPEN
  | .dclose _ => COMMAND_DCLOSE
  | .dread _ => COMMAND_DREAD
  | .sync .. => COMMAND_SYNC
  | .mount .. => COMMAND_MOUNT
  | .umount .. => COMMAND_UMOUNT
  | .devlist .. => COMMAND_DEVLIST

/-- The fields of the packet after `number` and `length`, in the order of the struct. The flags of
`umount` are not assigned. -/
def Command.fields : Command → List Field
  | .open pathname flags => [.word flags, .text pathname]
  | .close fd => [.word fd]
  | .read fd size => [.word fd, .word size]
  | .write fd size _ => [.word fd, .word size]
  | .lseek fd offset whence => [.word fd, .word offset, .word whence]
  | .delete pathname flags => [.word flags, .text pathname]
  | .mkdir pathname flags => [.word flags, .text pathname]
  | .rmdir pathname flags => [.word flags, .text pathname]
  | .dopen pathname flags => [.word flags, .text pathname]
  | .dclose dd => [.word dd]
  | .dread dd => [.word dd]
  | .sync device flags => [.word flags, .text device]
  | .mount device fsname flags argv argc =>
    [.text device, .text fsname, .word flags, .text argv, .word argc]
  | .umount device _ => [.unset 4, .text device]
  | .devlist pathname flags => [.word flags, .text pathname]

/-- The function returns -1 before it sends anything: `open` for a null pointer and a name that does
not fit its field, `read` for a negative size. -/
def Command.Refused : Command → Prop
  | .open pathname _ => ∀ s ∈ pathname, 256 ≤ s.length
  | .read _ size => size.toInt < 0
  | _ => False

instance (c : Command) : Decidable c.Refused :=
  match c with
  | .open none _ => .isTrue nofun
  | .open (some s) _ =>
    decidable_of_iff (256 ≤ s.length) ⟨fun h t ht => by cases ht; exact h, fun h => h s rfl⟩
  | .read _ size => inferInstanceAs (Decidable (size.toInt < 0))
  | .close _ | .write .. | .lseek .. | .delete .. | .mkdir .. | .rmdir .. | .dopen .. | .dclose _
  | .dread _ | .sync .. | .mount .. | .umount .. | .devlist .. => .isFalse id

/-- What the packet is built on: only `open` clears it first. -/
def Command.base (c : Command) (stack : List Byte) : List Byte :=
  match c with
  | .open .. => List.replicate (6 + sizeof c.fields) 0
  | _ => stack

/-- The packet of a command, built in a variable with the contents `stack`. -/
def Command.packet (e : Endian) (c : Command) (stack : List Byte) : List Byte :=
  CMemory.packet e c.number c.fields (c.base stack)

/-- What is sent after the packet. -/
def Command.data : Command → List Byte
  | .write _ size buffer => peek buffer 0 size.toInt.toNat
  | _ => []

/-! ## Responses -/

/-- `sizeof(response)`. -/
def Command.responseSize : Command → Nat
  | .read .. => 14
  | .dread _ => 306
  | .devlist .. => 270
  | .open .. | .close _ | .write .. | .lseek .. | .delete .. | .mkdir .. | .rmdir .. | .dopen ..
  | .dclose _ | .sync .. | .mount .. | .umount .. => 10

/-- What a command stores through its last argument out of the response packet. -/
def Command.saved (c : Command) (response : List Byte) : List Byte :=
  match c with
  | .dread _ => peek response 10 296
  | .devlist .. => peek response 14 256
  | _ => []

/-- `ntohl(response.result)`, an `int`. -/
def result (e : Endian) (response : List Byte) : Int := (ntohl e (load32 e response 6)).toInt

/-- The end of `ps2netfs_command_read`: receive the response data. -/
def receiveData (e : Endian) (size : Word) (response : List Byte) (s : Socket) :
    Int × List Byte × Socket :=
  let received := result e response
  if received < 0 then (received, [], s) else
  if size.toInt < received then (-1, [], s) else
    let (r, data, s) := networkReceiveAll s received
    if r < 0 then (-1, data, s) else (received, data, s)

/-- What a command does with its response: the result, and what it stores for the caller. -/
def Command.finish (e : Endian) (c : Command) (response : List Byte) (s : Socket) :
    Int × List Byte × Socket :=
  match c with
  | .read _ size => receiveData e size response s
  | _ => (result e response, c.saved response, s)

/-- Receive the response packet. -/
def Command.receive (e : Endian) (c : Command) (s : Socket) : Int × List Byte × Socket :=
  let (r, response, s) := networkReceiveAll s c.responseSize
  if r < 0 then (-1, [], s) else c.finish e response s

/-- Send the command data, which only `write` has. -/
def Command.sendData (e : Endian) (c : Command) (s : Socket) : Int × List Byte × Socket :=
  match c with
  | .write _ size buffer =>
    let (r, s) := networkSend s buffer size.toInt
    if r < 0 then (-1, [], s) else c.receive e s
  | _ => c.receive e s

/-- The command function: the result, what it stores for the caller, and the socket. -/
def Command.call (e : Endian) (c : Command) (stack : List Byte) (s : Socket) :
    Int × List Byte × Socket :=
  if c.Refused then (-1, [], s) else
    let (r, s) := networkSend s (c.packet e stack) (6 + sizeof c.fields)
    if r < 0 then (-1, [], s) else c.sendData e s

end Ps2netfs

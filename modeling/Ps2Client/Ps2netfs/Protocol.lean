import Ps2Client.CMemory.Proofs.CStringProofs
import Ps2Client.Ps2netfs.Commands

/-!
# The protocol of ps2netfs as documented

A receiver that knows only `ps2netfs-protocol.txt`: the table of request numbers, and the layout of
each request.
-/

namespace Ps2netfs

open CMemory

/-- The string in a `char field[256]` at `off`. -/
def textAt (packet : List Byte) (off : Nat) : CStr where
  bytes := cstr (peek packet off 256)
  noNull := zero_notMem_cstr _

/-- A request as the receiver understands it. -/
inductive Received where
  | «open» (flags : Word) (pathname : CStr)
  | close (fd : Word)
  | read (fd size : Word)
  | write (fd size : Word) (data : List Byte)
  | lseek (fd offset whence : Word)
  | delete (flags : Word) (pathname : CStr)
  | mkdir (flags : Word) (pathname : CStr)
  | rmdir (flags : Word) (pathname : CStr)
  | dopen (flags : Word) (pathname : CStr)
  | dclose (dd : Word)
  | dread (dd : Word)
  | sync (flags : Word) (device : CStr)
  | mount (device fsname : CStr) (flags : Word) (argv : CStr) (argc : Word)
  | umount (flags : Word) (device : CStr)
  | devlist (flags : Word) (pathname : CStr)
  deriving DecidableEq, Repr

/-- The request with a given number at the start of a stream. A write request is followed by its
data. -/
def decodeAs (number : Word) (stream : List Byte) : Option Received :=
  if number = 0xBEEF8011 then some (.open (net32 stream 6) (textAt stream 10)) else
  if number = 0xBEEF8021 then some (.close (net32 stream 6)) else
  if number = 0xBEEF8031 then some (.read (net32 stream 6) (net32 stream 10)) else
  if number = 0xBEEF8041 then
    some (.write (net32 stream 6) (net32 stream 10)
      (peek stream 14 (net32 stream 10).toInt.toNat)) else
  if number = 0xBEEF8051 then
    some (.lseek (net32 stream 6) (net32 stream 10) (net32 stream 14)) else
  if number = 0xBEEF8071 then some (.delete (net32 stream 6) (textAt stream 10)) else
  if number = 0xBEEF8081 then some (.mkdir (net32 stream 6) (textAt stream 10)) else
  if number = 0xBEEF8091 then some (.rmdir (net32 stream 6) (textAt stream 10)) else
  if number = 0xBEEF80A1 then some (.dopen (net32 stream 6) (textAt stream 10)) else
  if number = 0xBEEF80B1 then some (.dclose (net32 stream 6)) else
  if number = 0xBEEF80C1 then some (.dread (net32 stream 6)) else
  if number = 0xBEEF8131 then some (.sync (net32 stream 6) (textAt stream 10)) else
  if number = 0xBEEF8141 then
    some (.mount (textAt stream 6) (textAt stream 262) (net32 stream 518) (textAt stream 522)
      (net32 stream 778)) else
  if number = 0xBEEF8151 then some (.umount (net32 stream 6) (textAt stream 10)) else
  if number = 0xBEEF8F21 then some (.devlist (net32 stream 6) (textAt stream 10)) else none

/-- The request at the start of a stream: the number decides the layout. -/
def decodeRequest (stream : List Byte) : Option Received := decodeAs (net32 stream 0) stream

/-- What is to be received for a command whose strings are not null. -/
def Command.meant : Command → Option Received
  | .open (some pathname) flags => some (.open flags pathname)
  | .close fd => some (.close fd)
  | .read fd size => some (.read fd size)
  | .write fd size buffer => some (.write fd size (peek buffer 0 size.toInt.toNat))
  | .lseek fd offset whence => some (.lseek fd offset whence)
  | .delete (some pathname) flags => some (.delete flags pathname)
  | .mkdir (some pathname) flags => some (.mkdir flags pathname)
  | .rmdir (some pathname) flags => some (.rmdir flags pathname)
  | .dopen (some pathname) flags => some (.dopen flags pathname)
  | .dclose dd => some (.dclose dd)
  | .dread dd => some (.dread dd)
  | .sync (some device) flags => some (.sync flags device)
  | .mount (some device) (some fsname) flags (some argv) argc =>
    some (.mount device fsname flags argv argc)
  | .umount (some device) flags => some (.umount flags device)
  | .devlist (some pathname) flags => some (.devlist flags pathname)
  | _ => none

/-- The strings of a command. -/
def Command.strings : Command → List (Option CStr)
  | .open s _ | .delete s _ | .mkdir s _ | .rmdir s _ | .dopen s _ | .sync s _ | .umount s _
  | .devlist s _ => [s]
  | .mount device fsname _ argv _ => [device, fsname, argv]
  | .close _ | .read .. | .write .. | .lseek .. | .dclose _ | .dread _ => []

/-- Every string is there and fits its field. -/
def Command.Fits (c : Command) : Prop := ∀ s ∈ c.strings, ∃ t, s = some t ∧ t.length ≤ 255

/-- Whatever a command sends, on any stack, is received as that command with its arguments, and the
length field is the length of the packet. -/
def Command.Undone (e : Endian) (c : Command) : Prop :=
  ∀ stack rest, ¬ c.Refused →
    decodeRequest (c.packet e stack ++ (c.data ++ rest)) = c.meant ∧
      (net16 (c.packet e stack) 4).toNat = (c.packet e stack).length

/-- The commands whose numbers are those of other commands. -/
def Command.misnumbered : Command → Bool
  | .sync .. | .mount .. | .umount .. => true
  | _ => false

end Ps2netfs

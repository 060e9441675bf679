import Ps2Client.Network.Proofs.TransferProofs
import Ps2Client.Ps2link.Commands
import Ps2Client.Ps2netfs.Commands

/-!
# The commands of both clients

What the command functions of ps2link and of ps2netfs have in common: a packet is built on the stack,
field by field, and sent.
-/

namespace Wire

open CMemory Network

/-- A call of a command function. -/
inductive Command where
  | link (c : Ps2link.Command)
  | netfs (c : Ps2netfs.Command)
  deriving DecidableEq, Repr

/-- The fields of the packet after `number` and `length`. -/
def Command.fields (c : Command) (stack : List Byte) : List Field :=
  match c with
  | .link c => c.fields stack
  | .netfs c => c.fields

/-- The bytes passed to `network_send`, first the packet. -/
def Command.sends (e : Endian) (c : Command) (stack : List Byte) : List Byte :=
  match c with
  | .link c => if c.refused stack then [] else c.packet e stack
  | .netfs c => if c.Refused then [] else c.packet e stack ++ c.data

/-- The command function: its result and the socket. -/
def Command.call (e : Endian) (c : Command) (stack : List Byte) (s : Socket) : Int × Socket :=
  match c with
  | .link c => c.call e stack s
  | .netfs c =>
    let (result, _, s) := c.call e stack s
    (result, s)

/-! ## Path operands -/

/-- The command has the operand `s`, for the field at `off` of its packet. -/
def Command.Operand (c : Command) (off : Nat) (s : CStr) : Prop :=
  ∀ stack, ∃ pre post, c.fields stack = pre ++ .text (some s) :: post ∧ 6 + sizeof pre = off

/-- What is sent has the whole operand and a null in its field, or the call fails and nothing is
sent. A connection that fails cuts off what is sent. -/
def Command.SentWhole (c : Command) (off : Nat) (s : CStr) : Prop :=
  ∀ e stack socket,
    (∃ bytes, Emitted socket (c.call e stack socket).2 bytes ∧ s.length < 256 ∧
        peek bytes off (s.length + 1) = s.bytes ++ [0]) ∨
      (c.call e stack socket).1 < 0 ∧ (c.call e stack socket).2.sent = socket.sent

/-- `ps2netfs_command_open`. -/
def Command.isOpen : Command → Bool
  | .netfs (.open ..) => true
  | _ => false

end Wire

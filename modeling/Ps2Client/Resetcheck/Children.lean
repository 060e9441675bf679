import Ps2Client.Main.CommandLine
import Ps2Client.Main.Process
import Ps2Client.Resetcheck.Observer

/-!
# The children of `resetcheck`

`run_command` starts ps2client again, with the hostname that its parent has found. The vectors of these
processes, and what the packet of a reset is.
-/

namespace Resetcheck

open CMemory Main Ps2link

def Child.name : Child → CStr
  | .ping => .ofBuffer (literal "ping")
  | .reset => .ofBuffer (literal "reset")

def Child.id : Child → CommandId
  | .ping => .ping
  | .reset => .reset

/-- The vector `args` of `run_command`, without its null. -/
def Child.args (executable hostname : CStr) (child : Child) : List CStr :=
  [executable, .ofBuffer (literal "-h"), hostname, .ofBuffer (literal "-t"), .ofBuffer (literal "1"),
    child.name]

/-- The packet of `ps2link_command_reset`. -/
def resetPacket : List Byte := be32 COMMAND_RESET ++ be16 6

/-- A process that was started for a reset exits 0 when it has sent the packet, and with another status
when it has sent less than that. -/
structure ResetSent {σ κ : Type} (before : List Byte) (p : Process σ κ) (status : Int) : Prop where
  ok : status = 0 ↔ p.command.sent = before ++ resetPacket
  failed : status ≠ 0 → ∃ bytes, bytes <+: resetPacket ∧ bytes ≠ resetPacket ∧
    p.command.sent = before ++ bytes

end Resetcheck

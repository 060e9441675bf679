import Ps2Client.CMemory.Bounded
import Ps2Client.Fsclient.Copy

/-!
# `fsclient_devlist`

The names of the devices come in a buffer of 256 bytes, and their number apart from it. The loop takes
as many steps as the number says, and finds the next name behind the terminator of the last one.
-/

namespace Fsclient

open CMemory Ps2netfs
open Ps2link (Host)

/-- The devices that have a description. -/
def descriptions : List (String × String) :=
  [("rom", "  rom    - Onboard rom device.\n"),
   ("cdrom", "  cdrom  - Standard cd/dvd device. (cdrom:)\n"),
   ("host", "  host   - Host file system. (host:)\n"),
   ("mc", "  mc     - Memory card driver. (mc0: mc1:)\n"),
   ("hdd", "  hdd    - Internal HDD unit.\n"),
   ("pfs", "  pfs    - Playstation File System.\n"),
   ("dev9x", "  dev9x  - Blah blah blah.\n")]

/-- The comparisons, one after the other, and the line they lead to. -/
def describe : List (String × String) → List Byte → Option Printed
  | [], temp => (string? temp).map fun name => ⟨"  %s\n", [.string name]⟩
  | (name, text) :: others, temp =>
    match strcmp? temp (literal name) with
    | none => none
    | some true => some ⟨text, []⟩
    | some false => describe others temp

/-- The loop, with `devcount - loop0` steps to go: the strings that `temp` points to, each with the
line printed for it. There is no result when a read leaves the buffer. -/
def devlistLoop : Nat → List Byte → Option (List (List Byte × Printed))
  | 0, _ => some []
  | steps + 1, temp => do
    let line ← describe descriptions temp
    let n ← strlen? temp
    let visited ← devlistLoop steps (temp.drop (n + 1))
    return (temp.take n, line) :: visited

/-- What `fsclient_devlist` returns, what it prints, and the names it comes to. -/
structure Devices where
  status : Int
  out : List Printed
  visited : List (List Byte)
  deriving DecidableEq, Repr

/-- `ps2netfs_command_devlist("", 0, devlist)` -/
def listing : Command := .devlist (some (.ofBuffer (literal ""))) 0

/-- `fsclient_devlist`, from the response on. -/
def listDevices (devcount : Int) (devlist : List Byte) : Option Devices :=
  if devcount < 0 then
    some ⟨-1, [⟨"Error: Get device listing failed. (%d)\n", [.int devcount]⟩], []⟩
  else do
    let visited ← devlistLoop devcount.toNat devlist
    return ⟨0, ⟨"\n [Active Devices]\n\n", []⟩ :: visited.map Prod.snd ++
      [⟨"\n [%d Devices Found]\n\n", [.int devcount]⟩], visited.map Prod.fst⟩

variable {σ : Type} (e : Endian) (h : Host σ)

/-- `fsclient_devlist`; there is no result when a read leaves the buffer. -/
def devlist (w : World σ) : Option Devices × World σ :=
  let r := command e h listing w
  (listDevices r.1 r.2.1, r.2.2)

/-- The walk over the buffer stays in it, and comes to the first `result` strings there. -/
def WalksInside (run : Option Devices) (result : Int) (buffer : List Byte) : Prop :=
  ∃ r, run = some r ∧ r.visited = (strings buffer).take result.toNat ∧
    r.visited.length = result.toNat

end Fsclient

import Ps2Client.CMemory.Options
import Ps2Client.Fsclient.Copy
import Ps2Client.Main.CommandLine

/-!
# `main` of fsclient

The options, the command, and the call of the function for it. Only the operands of the two copies
are counted; for the other commands `main` passes on what it finds behind the command, up to the null
at the end of the vector and beyond.
-/

namespace Fsclient

open CMemory Ps2netfs Main

/-! ## Calls -/

/-- A call of a function of fsclient. An operand is a pointer and may be null. -/
inductive Call where
  | copyfrom (source destination : Option CStr)
  | copyto (source destination : Option CStr)
  | delete (pathname : Option CStr)
  | devlist
  | dir (pathname : Option CStr)
  | mkdir (pathname : Option CStr)
  | mount (device fsname : Option CStr)
  | rmdir (pathname : Option CStr)
  | sync (device : Option CStr)
  | umount (device : Option CStr)
  deriving DecidableEq, Repr

def Call.operands : Call → List (Option CStr)
  | .copyfrom source destination | .copyto source destination => [source, destination]
  | .delete pathname | .dir pathname | .mkdir pathname | .rmdir pathname => [pathname]
  | .mount device fsname => [device, fsname]
  | .sync device | .umount device => [device]
  | .devlist => []

def MOUNT_READWRITE : Word := 0x0000

/-- The command of ps2netfs that a function sends first. `fsclient_copyto` first opens a local
file. -/
def Call.first : Call → Option Command
  | .copyfrom source _ => some (.open source OPEN_READ)
  | .copyto .. => none
  | .delete pathname => some (.delete pathname 0)
  | .devlist => some (.devlist (some ⟨[], List.not_mem_nil⟩) 0)
  | .dir pathname => some (.dopen pathname 0)
  | .mkdir pathname => some (.mkdir pathname 0)
  | .mount device fsname =>
    some (.mount device fsname MOUNT_READWRITE (some ⟨[], List.not_mem_nil⟩) 0)
  | .rmdir pathname => some (.rmdir pathname 0)
  | .sync device => some (.sync device 0)
  | .umount device => some (.umount device 0)

/-- The call for the command `name`, with `operand k` for `argv[k]`. There is none for an unknown
command; the outer option is empty when an operand is read beyond the end of the vector. -/
def dispatch (name : CStr) (operand : Nat → Option (Option CStr)) : Option (Option Call) :=
  if name.bytes = literal "copyfrom" then return some (.copyfrom (← operand 0) (← operand 1)) else
  if name.bytes = literal "copyto" then return some (.copyto (← operand 0) (← operand 1)) else
  if name.bytes = literal "delete" then return some (.delete (← operand 0)) else
  if name.bytes = literal "devlist" then return some .devlist else
  if name.bytes = literal "dir" then return some (.dir (← operand 0)) else
  if name.bytes = literal "mkdir" then return some (.mkdir (← operand 0)) else
  if name.bytes = literal "mount" then return some (.mount (← operand 0) (← operand 1)) else
  if name.bytes = literal "rmdir" then return some (.rmdir (← operand 0)) else
  if name.bytes = literal "sync" then return some (.sync (← operand 0)) else
  if name.bytes = literal "umount" then return some (.umount (← operand 0)) else return none

/-! ## The program -/

/-- What `main` does, in order. -/
inductive Event where
  | printed (p : Printed)
  | usage
  | startup
  | connect (hostname : CStr)
  | call (c : Call)
  deriving DecidableEq, Repr

/-- The results of `network_startup`, `ps2netfs_connect` and the functions for the commands. -/
structure Net where
  startup : Int
  connect : CStr → Int
  perform : Call → Int

/-- `strncmp(arg, "-h", 2) == 0` -/
def isHostOption (arg : CStr) : Bool := (literal "-h").isPrefixOf arg.bytes

/-- The options, which set the hostname. -/
def option (arg : CStr) : Option (Opt (List Byte)) :=
  if isHostOption arg then
    some ⟨"Error: No hostname was supplied the '-h' option.\n",
      fun value hostname => some (setHostname hostname value.bytes)⟩
  else none

/-- The end of `main`, from `network_startup` on. -/
def perform (net : Net) (hostname : CStr) (name : CStr) (operand : Nat → Option (Option CStr)) :
    List Event × Option Int :=
  if net.startup < 0 then
    ([.startup, .printed ⟨"Error: Could not startup network.\n", []⟩], some 1)
  else if net.connect hostname < 0 then
    ([.startup, .connect hostname, .printed
      ⟨"Error: Could not connect to the ps2netfs server. (%s)\n", [.string hostname]⟩], some (-1))
  else match dispatch name operand with
    | none => ([.startup, .connect hostname], none)
    | some none => ([.startup, .connect hostname, .printed
        ⟨"Error: Unknown command requested. (%s)\n", [.string name]⟩, .usage], some (-1))
    | some (some c) => ([.startup, .connect hostname, .call c], some (net.perform c))

def isCopy (name : CStr) : Prop := name.bytes = literal "copyfrom" ∨ name.bytes = literal "copyto"

instance (name : CStr) : Decidable (isCopy name) := inferInstanceAs (Decidable (_ ∨ _))

/-- What `main` does and returns. It returns nothing when it reads beyond the null at the end of the
vector, or takes the null for a string. -/
def main (net : Net) (env argv : List CStr) : List Event × Option Int :=
  let hostname := environment env initialHostname
  if argv.length < 2 then ([.usage], some (-1)) else
  match optionLoop option argv 1 hostname with
  | .undefined => ([], none)
  | .refused message => ([.printed ⟨message, []⟩, .usage], some (-1))
  | .done loop0 hostname =>
    -- `loop0++; argc -= loop0; argv += loop0;`
    let loop0 := loop0 + 1
    let argc : Int := argv.length - loop0
    if argc < 0 then
      ([.printed ⟨"Error: No command was supplied.\n", []⟩, .usage], some (-1))
    else match element argv (loop0 - 1) with
      | some (some name) =>
        if isCopy name ∧ argc < 2 then
          ([.printed ⟨"Error: Copy commands need source and destination paths.\n", []⟩], some (-1))
        else perform net (hostnameString hostname) name fun k => element argv (loop0 + k)
      | some none | none => ([], none)

/-! ## Complete commands -/

/-- A vector with pairs of options, the command `name`, and its operands. -/
def Line (argv : List CStr) (name : CStr) (operands : List CStr) : Prop :=
  ∃ program pairs, argv = program :: (flatPairs pairs ++ name :: operands) ∧
    (∀ p ∈ pairs, isHostOption p.1 = true) ∧ isHostOption name = false

/-- The number of operands a command takes. -/
def arity (name : CStr) : Nat :=
  if name.bytes ∈ [literal "copyfrom", literal "copyto", literal "mount"] then 2 else
  if name.bytes ∈ [literal "delete", literal "dir", literal "mkdir", literal "rmdir", literal "sync",
      literal "umount"] then 1 else 0

/-- `main` reads the vector only, calls functions only with operands that were given, and when
operands are missing it returns an error without calling any. -/
def DispatchesComplete (argv : List CStr) : Prop :=
  ∀ net env, (main net env argv).2 ≠ none ∧
    (∀ c, .call c ∈ (main net env argv).1 → ∃ name operands, Line argv name operands ∧
      ∀ p ∈ c.operands, ∃ s ∈ operands, p = some s) ∧
    ∀ name operands, Line argv name operands → operands.length < arity name →
      (∃ code, (main net env argv).2 = some code ∧ code ≠ 0) ∧ ∀ c, .call c ∉ (main net env argv).1

end Fsclient

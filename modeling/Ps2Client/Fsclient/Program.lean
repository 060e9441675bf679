import Ps2Client.Fsclient.Devlist
import Ps2Client.Fsclient.Dir
import Ps2Client.Fsclient.Main
import Ps2Client.Network.Connect

/-!
# The whole of fsclient

The functions for the commands behind `main`, and the calls that a run makes on its connection.
-/

namespace Ps2netfs

open Network

variable {τ : Type} (k : Kernel τ)

/-- `ps2netfs_connect` -/
def connect (hostname : List CMemory.Byte) (n : Network.Net τ) : Int × Network.Net τ :=
  let s := networkConnect k hostname 0x4713 .stream n
  (if s.1 < 0 then -1 else 0, s.2)

end Ps2netfs

namespace Fsclient

open CMemory Network Ps2netfs
open Ps2link (Host)

variable {σ τ : Type} (e : Endian) (h : Host σ)

/-! ## The functions for the commands -/

/-- The body of the functions that send one command. -/
def simple (c : Command) (failed : String) (w : World σ) : Int × List Printed × World σ :=
  let r := commandResult e h c w
  if r.1 < 0 then (-1, [⟨failed, [.int r.1]⟩], r.2) else (0, [], r.2)

def delete (pathname : Option CStr) (w : World σ) : Int × List Printed × World σ :=
  simple e h (.delete pathname 0) "Error: Delete file failed. (%d)\n" w

def mkdir (pathname : Option CStr) (w : World σ) : Int × List Printed × World σ :=
  simple e h (.mkdir pathname 0) "Error: Make directory failed. (%d)\n" w

def mount (device fsname : Option CStr) (w : World σ) : Int × List Printed × World σ :=
  simple e h (.mount device fsname MOUNT_READWRITE (some (.ofBuffer (literal ""))) 0)
    "Error: Mount device failed. (%d)\n" w

def rmdir (pathname : Option CStr) (w : World σ) : Int × List Printed × World σ :=
  simple e h (.rmdir pathname 0) "Error: Remove directory failed. (%d)\n" w

def sync (device : Option CStr) (w : World σ) : Int × List Printed × World σ :=
  simple e h (.sync device 0) "Error: Sync device failed. (%d)\n" w

def umount (device : Option CStr) (w : World σ) : Int × List Printed × World σ :=
  simple e h (.umount device 0) "Error: Umount device failed. (%d)\n" w

/-- A call in a world: what the function returns and prints. There is no result when it leaves its
buffer or prints a null pointer; `main` calls the copies with no null pointer. -/
def runCall (c : Call) (w : World σ) : Option (Int × List Printed × World σ) :=
  match c with
  | .copyfrom (some source) (some destination) =>
    let r := copyfrom e h source destination w
    some (r.1, r.2.out, r.2.world)
  | .copyto (some source) (some destination) =>
    let r := copyto e h source destination w
    some (r.1, r.2.out, r.2.world)
  | .copyfrom .. | .copyto .. => none
  | .delete pathname => some (delete e h pathname w)
  | .devlist =>
    let d := devlist e h w
    d.1.map fun r => (r.status, r.out, d.2)
  | .dir (some pathname) => dir e h pathname w
  | .dir none =>
    let d := commandResult e h (.dopen none 0) w
    if d.1 < 0 then some (-1, [⟨"Error: Open directory failed. (%d)\n", [.int d.1]⟩], d.2) else none
  | .mkdir pathname => some (mkdir e h pathname w)
  | .mount device fsname => some (mount e h device fsname w)
  | .rmdir pathname => some (rmdir e h pathname w)
  | .sync device => some (sync e h device w)
  | .umount device => some (umount e h device w)

/-- `network_startup`, where there is no winsock. -/
def networkStartup : Int := 0

/-- What `main` gets from the network and its functions. A function without a result may return
anything. -/
def results (k : Kernel τ) (n : Network.Net τ) (w : World σ) (undefined : Call → Int) : Net where
  startup := networkStartup
  connect hostname := (connect k hostname.bytes n).1
  perform c := match runCall e h c w with
    | some (status, _, _) => status
    | none => undefined c

/-! ## Sessions -/

/-- From `w` to `w'` the commands were called one after the other with these results. In between the
connection was left alone. -/
inductive Called : World σ → List (Command × Int) → World σ → Prop where
  | nil {w w' : World σ} (hsock : w'.sock = w.sock) : Called w [] w'
  | cons {w w₁ w' : World σ} {c : Command} {calls : List (Command × Int)} (hsock : w₁.sock = w.sock)
    (hrest : Called (command e h c w₁).2.2 calls w') :
    Called w ((c, (command e h c w₁).1) :: calls) w'

def usesFile (fd : Word) : Command → Prop
  | .read fd' _ | .write fd' _ _ | .lseek fd' _ _ => fd' = fd
  | _ => False

def usesDirectory (dd : Word) : Command → Prop
  | .dread dd' => dd' = dd
  | _ => False

/-- What closes that which a command opens, and what it may be used for before. -/
def opens : Command → Option ((Word → Command) × (Word → Command → Prop))
  | .open .. => some (.close, usesFile)
  | .dopen .. => some (.dclose, usesDirectory)
  | _ => none

/-- The first command of a call. -/
def Call.opening : Call → Command
  | .copyfrom source _ => .open source OPEN_READ
  | .copyto _ destination => .open destination (OPEN_WRITE ||| OPEN_CREATE ||| OPEN_TRUNCATE)
  | .delete pathname => .delete pathname 0
  | .devlist => listing
  | .dir pathname => .dopen pathname 0
  | .mkdir pathname => .mkdir pathname 0
  | .mount device fsname => .mount device fsname MOUNT_READWRITE (some (.ofBuffer (literal ""))) 0
  | .rmdir pathname => .rmdir pathname 0
  | .sync device => .sync device 0
  | .umount device => .umount device 0

/-- The commands of one call, with their results. What was opened is used only for what it is, and then
closed once; if nothing was opened, that is all. -/
inductive Session : Call → List (Command × Int) → Prop where
  /-- The local file comes first. -/
  | silent (source destination : Option CStr) : Session (.copyto source destination) []
  | single {c : Call} {r : Int} (hclosed : opens c.opening = none ∨ r < 0) : Session c [(c.opening, r)]
  | used {c : Call} {fd closed : Int} {close : Word → Command} {uses : Word → Command → Prop}
    {calls : List (Command × Int)} (hopens : opens c.opening = some (close, uses)) (hfd : 0 ≤ fd)
    (huses : ∀ call ∈ calls, uses (.ofInt 32 fd) call.1) :
    Session c ((c.opening, fd) :: (calls ++ [(close (.ofInt 32 fd), closed)]))

/-- The command failed. A listing does not tell a failure from the end of the directory. -/
def CallFailed (call : Command × Int) : Prop := call.2 < 0 ∧ ∀ dd, call.1 ≠ .dread dd

/-- From `w` to `w'` a call had a session in which no command failed if its status is 0. -/
def InSession (c : Call) (status : Int) (w w' : World σ) : Prop :=
  ∃ calls, Called e h w calls w' ∧ Session c calls ∧
    (status = 0 → ∀ call ∈ calls, ¬ CallFailed call)

end Fsclient

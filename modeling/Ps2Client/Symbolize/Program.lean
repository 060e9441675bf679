import Ps2Client.Symbolize.Log
import Ps2Client.Symbolize.Options
import Ps2Client.Symbolize.Tool

/-!
# The program ps2symbolize

`main`, from its arguments to its exit status, and what it does with the system.
-/

namespace Symbolize

open CMemory History

/-- Where logs come from, and what `perror` prints for one that cannot be opened. -/
structure Logs where
  stdin : List Byte
  fopen : List Byte → Option (List Byte)
  perror : List Byte → List Byte

/-- How the program ends. -/
structure Outcome (κ : Type) where
  status : Int
  out : List Byte
  stderr : List Byte
  tools : Tools κ

def usageText : List Byte :=
  literal "Usage: ps2symbolize [--ee ELF] [--iop MODULE=ELF]... " ++
    literal "[--ee-tool PATH] [--iop-tool PATH] [LOG|-]\n"

variable {κ : Type} (k : System κ) (logs : Logs)

/-- The end of `main`, with the log. -/
def annotateLog (c : Config) (input : List Byte) (state : κ) : Outcome κ :=
  let s := readLoop c (resolveSymbol k) input (.initial ⟨[], state⟩)
  ⟨if s.errors ≠ 0 then 1 else 0, s.out, s.stderr, s.context⟩

/-- The log to read, or the path that cannot be opened. -/
def Logs.log (logs : Logs) (path : Option CStr) : Except CStr (List Byte) :=
  match path with
  | none => .ok logs.stdin
  | some path =>
    if path.bytes = literal "-" then .ok logs.stdin
    else match logs.fopen path.bytes with
      | some input => .ok input
      | none => .error path

/-- `main`, with the arguments after the name of the program. -/
def main (args : List CStr) (state : κ) : Outcome κ :=
  match parse args .initial with
  | .usage => ⟨2, [], usageText, ⟨[], state⟩⟩
  | .help => ⟨0, usageText, [], ⟨[], state⟩⟩
  | .run o =>
    match logs.log o.logPath with
    | .ok input => annotateLog k o.config input state
    | .error path => ⟨1, [], logs.perror path.bytes, ⟨[], state⟩⟩

/-! ## What it is to do -/

/-- A command line with something to look up. -/
structure CommandLine (items : List Argument) (args : List CStr) : Prop where
  acceptable : Acceptable items
  args_eq : args = items.flatMap Argument.args
  useful : (meaning items).Useful

/-- A command line up to `--help`. -/
def AsksHelp (args : List CStr) : Prop :=
  ∃ items rest, Acceptable items ∧ args = items.flatMap Argument.args ++ .ofBuffer (literal "--help") :: rest

/-- The line on the standard error for a tool that could not be run. -/
def complaint (call : Call) : List Byte :=
  literal "ps2symbolize: cannot execute " ++ call.tool.bytes ++ literal " for " ++ call.elf.bytes ++
    literal "\n"

/-- What the lookups of a log give, and what they leave of the tools. -/
def answers (c : Config) (input : List Byte) (state : κ) : List Answered × Tools κ :=
  lookUp (resolveSymbol k) ((episodes (lines input)).filterMap (Episode.lookup c)) ⟨[], state⟩

/-- What is to come of a log. -/
structure Outcome.Annotates (c : Config) (input : List Byte) (state : κ) (r : Outcome κ) : Prop where
  /-- The tools are run for the lookups of its episodes, and for nothing else. -/
  tools : r.tools = (answers k c input state).2
  /-- The log is copied, and the symbols that are found are inserted, in order, each behind the line
  with its address. -/
  out : ∃ written : List (CStr × List Byte), written.map Prod.fst = lines input ∧
    r.out = (written.map fun b => b.1.bytes ++ b.2).flatten ∧
    (written.filter fun b => b.2 ≠ []) = (answers k c input state).1.filterMap insertion
  /-- The tools that could not be run are reported. -/
  stderr : r.stderr = (((answers k c input state).1.filter fun a => a.2.1 < 0).map fun a =>
    complaint a.1.call).flatten
  status : r.status = if ∃ a ∈ (answers k c input state).1, a.2.1 < 0 then 1 else 0

/-! ## Resources -/

/-- The call is for an ELF of the command line, with its tool. -/
def Config.Configured (c : Config) (call : Call) : Prop :=
  c.eeElf = some call.elf ∧ call.tool = c.eeTool ∨
    (∃ m ∈ c.modules, m.elf = some call.elf) ∧ call.tool = c.iopTool

/-- The ends of pipes that are open, the streams on them, whether there are file actions, and the
children that have not been waited for. -/
structure Resources where
  inputs : Set Int
  outputs : Set Int
  streams : Set Int
  actions : Bool
  children : Set Int

def Resources.none : Resources := ⟨∅, ∅, ∅, false, ∅⟩

def Resources.next (t : Resources) : SystemEvent → Resources
  | ⟨.pipe, some (input, output)⟩ =>
    { t with inputs := insert input t.inputs, outputs := insert output t.outputs }
  | ⟨.actionsInit, true⟩ => { t with actions := true }
  | ⟨.actionsDestroy, _⟩ => { t with actions := false }
  | ⟨.spawn .., some pid⟩ => { t with children := insert pid t.children }
  | ⟨.close fd, _⟩ => { t with inputs := t.inputs \ {fd}, outputs := t.outputs \ {fd} }
  | ⟨.fdopen fd, true⟩ => { t with streams := insert fd t.streams }
  | ⟨.fclose stream, _⟩ => { t with inputs := t.inputs \ {stream}, streams := t.streams \ {stream} }
  | ⟨.waitpid pid, _⟩ => { t with children := t.children \ {pid} }
  | _ => t

/-- New descriptors and children are new. -/
def Resources.Assumes (t : Resources) : SystemEvent → Prop
  | ⟨.pipe, some (input, output)⟩ =>
    input ≠ output ∧ input ∉ t.inputs ∪ t.outputs ∧ output ∉ t.inputs ∪ t.outputs
  | ⟨.spawn .., some pid⟩ => pid ∉ t.children
  | _ => True

/-- What the program may do. It reads only when no other end is open for writing, so that the end of the
child ends the reading; and it waits only when no pipe is open, so that the child does not wait for it. -/
def Resources.Guarantees (c : Config) (t : Resources) (ev : SystemEvent) : Prop :=
  match ev.call with
  | .pipe => True
  | .actionsInit => t.actions = false
  | .actionsDestroy => t.actions = true
  | .spawn tool argv input output => t.actions = true ∧ input ∈ t.inputs ∧ output ∈ t.outputs ∧
      ∃ call, c.Configured call ∧ tool = call.tool.bytes ∧ ∃ pc, constant pc = some call.pc.toNat ∧
        argv = [call.tool.bytes, literal "-f", literal "-C", literal "-p", literal "-e", call.elf.bytes, pc]
  | .close fd => fd ∈ t.inputs ∪ t.outputs ∧ fd ∉ t.streams
  | .fdopen fd => fd ∈ t.inputs ∧ fd ∉ t.streams
  | .fgets stream _ => stream ∈ t.streams ∧ t.outputs = ∅
  | .fclose stream => stream ∈ t.streams
  | .waitpid pid => pid ∈ t.children ∧ t.inputs = ∅ ∧ t.outputs = ∅

def toolContract (c : Config) : Contract SystemEvent Resources :=
  ⟨.none, Resources.next, Resources.Assumes, Resources.Guarantees c⟩

end Symbolize

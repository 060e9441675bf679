import Ps2Client.CMemory.Lines
import Ps2Client.Symbolize.Annotate

/-!
# The command line of ps2symbolize

The loop of `main` over the arguments, and the command lines that it is for.
-/

namespace Symbolize

open CMemory

/-- What the arguments set. -/
structure Options where
  config : Config
  logPath : Option CStr
  deriving DecidableEq, Repr

def EE_TOOL : CStr := .ofBuffer (literal "mips64r5900el-ps2-elf-addr2line")
def IOP_TOOL : CStr := .ofBuffer (literal "mipsel-none-elf-addr2line")

def Options.initial : Options := ⟨⟨none, EE_TOOL, IOP_TOOL, []⟩, none⟩

/-- What the loop ends with. -/
inductive Parsed where
  | usage
  | help
  | run (o : Options)
  deriving DecidableEq, Repr

def equals : Byte := ascii '='

def setEe (elf : CStr) (o : Options) : Option Options :=
  some { o with config := { o.config with eeElf := some elf } }

def setEeTool (path : CStr) (o : Options) : Option Options :=
  some { o with config := { o.config with eeTool := path } }

def setIopTool (path : CStr) (o : Options) : Option Options :=
  some { o with config := { o.config with iopTool := path } }

/-- `MODULE=ELF`, for an array of 64 entries with names of at most 127 characters. -/
def addModule (pair : CStr) (o : Options) : Option Options :=
  let length := if pair.bytes.contains equals then (pair.bytes.takeWhile (· ≠ equals)).length else 0
  if length = 0 ∨ 128 ≤ length ∨ pair.bytes.drop (length + 1) = [] ∨ o.config.modules.length = 64 then
    none
  else
    let entry : ModuleMap := ⟨.ofBuffer (pair.bytes.take length),
      some (.ofBuffer (pair.bytes.drop (length + 1)))⟩
    some { o with config := { o.config with modules := o.config.modules ++ [entry] } }

/-- The options with a value. -/
def valueOption (arg : CStr) : Option (CStr → Options → Option Options) :=
  if arg.bytes = literal "--ee" then some setEe
  else if arg.bytes = literal "--ee-tool" then some setEeTool
  else if arg.bytes = literal "--iop-tool" then some setIopTool
  else if arg.bytes = literal "--iop" then some addModule
  else none

/-- A path does not start with `-`, unless it is `-`, the standard input. -/
def IsPath (arg : CStr) : Prop := arg.bytes.head? ≠ some (ascii '-') ∨ arg.bytes = literal "-"

instance (arg : CStr) : Decidable (IsPath arg) := inferInstanceAs (Decidable (_ ∨ _))

/-- The loop over the arguments, and the check after it. -/
def parse : List CStr → Options → Parsed
  | [], o => if o.config.eeElf = none ∧ o.config.modules = [] then .usage else .run o
  | arg :: args, o =>
    match valueOption arg, args with
    | some _, [] => .usage
    | some set, value :: args =>
      match set value o with
      | none => .usage
      | some o => parse args o
    | none, args =>
      if arg.bytes = literal "--help" then .help
      else if o.logPath = none ∧ IsPath arg then parse args { o with logPath := some arg }
      else .usage

/-! ## Command lines -/

/-- A part of a command line. -/
inductive Argument where
  | ee (elf : CStr)
  | eeTool (path : CStr)
  | iopTool (path : CStr)
  | iop (name elf : CStr)
  | log (path : CStr)
  deriving DecidableEq, Repr

def Argument.args : Argument → List CStr
  | .ee elf => [.ofBuffer (literal "--ee"), elf]
  | .eeTool path => [.ofBuffer (literal "--ee-tool"), path]
  | .iopTool path => [.ofBuffer (literal "--iop-tool"), path]
  | .iop name elf => [.ofBuffer (literal "--iop"), .ofBuffer (name.bytes ++ equals :: elf.bytes)]
  | .log path => [path]

/-- The name of a module has 1 to 127 characters and no `=`, and its ELF is not empty. -/
def Argument.Valid : Argument → Prop
  | .iop name elf =>
    name.bytes ≠ [] ∧ name.length ≤ 127 ∧ equals ∉ name.bytes ∧ elf.bytes ≠ []
  | .log path => IsPath path
  | .ee _ | .eeTool _ | .iopTool _ => True

def Argument.ee? : Argument → Option CStr
  | .ee elf => some elf
  | _ => none

def Argument.eeTool? : Argument → Option CStr
  | .eeTool path => some path
  | _ => none

def Argument.iopTool? : Argument → Option CStr
  | .iopTool path => some path
  | _ => none

def Argument.module? : Argument → Option ModuleMap
  | .iop name elf => some ⟨name, some elf⟩
  | _ => none

def Argument.log? : Argument → Option CStr
  | .log path => some path
  | _ => none

/-- There are at most 64 modules and one log. -/
structure Acceptable (items : List Argument) : Prop where
  valid : ∀ item ∈ items, item.Valid
  modules : (items.filterMap Argument.module?).length ≤ 64
  log : (items.filterMap Argument.log?).length ≤ 1

/-- What a command line means: the last value of each option counts, and all modules do, in order. -/
def meaning (items : List Argument) : Options where
  config :=
    { eeElf := (items.filterMap Argument.ee?).getLast?
      eeTool := (items.filterMap Argument.eeTool?).getLast?.getD EE_TOOL
      iopTool := (items.filterMap Argument.iopTool?).getLast?.getD IOP_TOOL
      modules := items.filterMap Argument.module? }
  logPath := (items.filterMap Argument.log?).getLast?

/-- There is something to look up. -/
def Options.Useful (o : Options) : Prop := o.config.eeElf ≠ none ∨ o.config.modules ≠ []

end Symbolize

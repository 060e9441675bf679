import Ps2Client.CMemory.Lines
import Ps2Client.Symbolize.Annotate

/-!
# The log

The loop of `main` of `ps2symbolize`: it reads a log with `fgets` into `char line[8192]`, and
annotates what it has read. A line that is longer comes in pieces, and a piece ends at its first null.
-/

namespace Symbolize

open CMemory

/-- `while (fgets(line, sizeof(line), input)) { annotate_line(…); }` -/
def readLoop {Context : Type} (c : Config) (resolve : Resolver Context) (input : List Byte)
    (s : Symbolizer Context) : Symbolizer Context :=
  match _h : fgets 8192 input with
  | none => s
  | some (line, rest) => readLoop c resolve rest (annotateLine c resolve (.ofBuffer line) s)
termination_by input.length
decreasing_by exact fgets_length (by decide) _h

/-- What `fgets` stores, one call after another. -/
def pieces (input : List Byte) : List (List Byte) :=
  match _h : fgets 8192 input with
  | none => []
  | some (line, rest) => line :: pieces rest
termination_by input.length
decreasing_by exact fgets_length (by decide) _h

/-- The strings that `annotate_line` gets. -/
def lines (input : List Byte) : List CStr := (pieces input).map CStr.ofBuffer

/-! ## What is inserted -/

section Insertions

variable {Context : Type} (c : Config) (resolve : Resolver Context)

/-- What `annotate_line` writes behind the line. -/
def inserted (line : CStr) (s : Symbolizer Context) : List Byte :=
  (annotateLine c resolve line s).out.drop (s.out.length + line.length)

/-- The lines, each with what is inserted behind it. -/
def insertions : Symbolizer Context → List CStr → List (CStr × List Byte)
  | _, [] => []
  | s, line :: lines =>
    (line, inserted c resolve line s) :: insertions (annotateLine c resolve line s) lines

/-- The output is the log with insertions: without them it is the input, and every one of them is
lines that come where a line has ended. -/
structure LogKept (input : List Byte) (context : Context) : Prop where
  output : (readLoop c resolve input (.initial context)).out =
    ((insertions c resolve (.initial context) (lines input)).map fun b => b.1.bytes ++ b.2).flatten
  log : ((insertions c resolve (.initial context) (lines input)).map fun b => b.1.bytes).flatten =
    input
  annotated : ∀ b ∈ insertions c resolve (.initial context) (lines input), b.2 ≠ [] →
    b.2.getLast? = some newline
  placed : ∀ b ∈ insertions c resolve (.initial context) (lines input), b.2 ≠ [] →
    b.1.bytes.getLast? = some newline

end Insertions

/-- The log is preserved with every resolver. -/
def LogPreserved (c : Config) (input : List Byte) : Prop :=
  ∀ (Context : Type) (resolve : Resolver Context) (context : Context),
    LogKept c resolve input context

/-! ## Addresses -/

def Kind.hasAddress (kind : Kind) (line : CStr) : Bool :=
  match kind with
  | .ee => (eeAddress line).isSome
  | .iop => (iopAddress line).isSome

/-- The line with the address of an episode that calls the resolver. -/
def Episode.calledLine (c : Config) (e : Episode) : Option CStr :=
  if (e.call c).isSome then e.lines.find? e.kind.hasAddress else none

/-- The line of every address that is resolved ends in a newline. -/
def AddressesEnd (c : Config) (lines : List CStr) : Prop :=
  ∀ e ∈ episodes lines, ∀ line, e.calledLine c = some line → line.bytes.getLast? = some newline

/-! ## Lookups -/

/-- The module that a line names, for an exception of the IOP. -/
def Kind.moduleName (kind : Kind) (line : CStr) : List Byte :=
  match kind with
  | .ee => []
  | .iop => ((iopAddress line).map Prod.fst).getD []

/-- What an episode looks up: the line with its address, the module named there, and the call. -/
structure Lookup where
  line : CStr
  name : List Byte
  call : Call
  deriving DecidableEq, Repr

def Episode.lookup (c : Config) (e : Episode) : Option Lookup := do
  let call ← e.call c
  let line ← e.lines.find? e.kind.hasAddress
  return ⟨line, e.kind.moduleName line, call⟩

/-- A lookup with its result and the symbol. -/
abbrev Answered : Type := Lookup × Int × List Byte

/-- The lookups one after the other, each on what the one before it has left. -/
def lookUp {Context : Type} (resolve : Resolver Context) :
    List Lookup → Context → List Answered × Context
  | [], context => ([], context)
  | l :: ls, context =>
    let (answer, context) := resolve context l.call
    let (answers, context) := lookUp resolve ls context
    ((l, answer) :: answers, context)

/-- The line that tells the symbol. -/
def symbolLine (name symbol : List Byte) : List Byte :=
  if name ≠ [] then literal "  [IOP " ++ name ++ literal " symbol] " ++ symbol ++ literal "\n"
  else literal "  [EE symbol] " ++ symbol ++ literal "\n"

/-- What a lookup adds to the log: the symbol it has found, behind the line with the address. -/
def insertion : Answered → Option (CStr × List Byte)
  | (l, value, symbol) => if 0 < value then some (l.line, symbolLine l.name symbol) else none

end Symbolize

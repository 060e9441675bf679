import Mathlib.Data.List.Infix
import Ps2Client.CMemory.Scan

/-!
# `ps2symbolize`

`annotate_line` copies a line of an exception log and follows it by the symbol of the address it
reports. Calls of the resolver are recorded with their results.
-/

namespace Symbolize

open CMemory

/-- `struct module_map` -/
structure ModuleMap where
  name : CStr
  elf : Option CStr
  deriving DecidableEq, Repr

/-- The part of `struct symbolizer` that `annotate_line` only reads. -/
structure Config where
  eeElf : Option CStr
  eeTool : CStr
  iopTool : CStr
  modules : List ModuleMap
  deriving DecidableEq, Repr

/-- The exceptions, other than none. -/
inductive Kind where
  | ee
  | iop
  deriving DecidableEq, Repr

/-- The arguments of the resolver. -/
structure Call where
  tool : CStr
  elf : CStr
  pc : BitVec 32
  deriving DecidableEq, Repr

/-- A resolver works on its context, and gives its result and the symbol it has written. -/
abbrev Resolver (Context : Type) : Type := Context → Call → (Int × List Byte) × Context

/-- `exception` and `errors` of `struct symbolizer`, what has been written, and the resolver. -/
structure Symbolizer (Context : Type) where
  exception : Option Kind
  errors : Int
  out : List Byte
  stderr : List Byte
  calls : List (Call × Int)
  context : Context

def Symbolizer.initial {Context : Type} (context : Context) : Symbolizer Context :=
  ⟨none, 0, [], [], [], context⟩

def tolower (b : Byte) : Byte := if 0x41 ≤ b.toNat ∧ b.toNat ≤ 0x5a then b + 0x20 else b

/-- `equals_ignore_case` -/
def equalsIgnoreCase : List Byte → List Byte → Bool
  | a :: as, b :: bs => if tolower a ≠ tolower b then false else equalsIgnoreCase as bs
  | as, bs => as.isEmpty && bs.isEmpty

def eeHeader : List Byte := literal "EE Exception handler:"
def iopHeader : List Byte := literal "IOP Exception handler:"
def epcWord : List Byte := literal "EPC "
def moduleWord : List Byte := literal "Module Name \""

/-- `"EPC %x"` -/
def eeFormat : List Directive := characters (literal "EPC") ++ [.blank, .hex]

/-- `"Module Name \"%127[^\"]\" Relative EPC %x"` -/
def iopFormat : List Directive :=
  characters (literal "Module") ++ .blank :: characters (literal "Name") ++ .blank :: .character (ascii '"') ::
    .scanset 127 (ascii '"') :: .character (ascii '"') :: .blank :: characters (literal "Relative") ++
    .blank :: characters (literal "EPC") ++ [.blank, .hex]

/-- The loop over the modules. -/
def findElf (name : List Byte) : List ModuleMap → Option CStr
  | [] => none
  | m :: ms => if equalsIgnoreCase name m.name.bytes then m.elf else findElf name ms

section Annotate

variable {Context : Type} (c : Config) (resolve : Resolver Context)

/-- What the result of a call is followed by. -/
def report (name symbol : List Byte) (call : Call) (value : Int) (s : Symbolizer Context) :
    Symbolizer Context :=
  if 0 < value then
    if name ≠ [] then
      { s with out := s.out ++ literal "  [IOP " ++ name ++ literal " symbol] " ++ symbol ++ literal "\n" }
    else { s with out := s.out ++ literal "  [EE symbol] " ++ symbol ++ literal "\n" }
  else if value < 0 then
    { s with
      stderr := s.stderr ++ literal "ps2symbolize: cannot execute " ++ call.tool.bytes ++
        literal " for " ++ call.elf.bytes ++ literal "\n"
      errors := s.errors + 1 }
  else s

/-- The call of the resolver, when there is an ELF. -/
def annotateSymbol (name : List Byte) (tool : CStr) (elf : Option CStr) (pc : BitVec 32)
    (s : Symbolizer Context) : Symbolizer Context :=
  match elf with
  | none => s
  | some elf =>
    let call : Call := ⟨tool, elf, pc⟩
    let ((value, symbol), context) := resolve s.context call
    report name symbol call value { s with calls := s.calls ++ [(call, value)], context := context }

/-- The exception after the two searches for a header. -/
def enter (line : List Byte) (exception : Option Kind) : Option Kind :=
  let exception := if (strstr line eeHeader).isSome then some .ee else exception
  if (strstr line iopHeader).isSome then some .iop else exception

/-- The branch for an EE exception, with an ELF. -/
def annotateEe (elf : CStr) (line : List Byte) (s : Symbolizer Context) : Symbolizer Context :=
  match strstr line epcWord with
  | none => s
  | some epc =>
    match sscanf eeFormat epc with
    | [.number pc] => annotateSymbol resolve [] c.eeTool (some elf) pc { s with exception := none }
    | _ => s

/-- The branch for an IOP exception. -/
def annotateIop (line : List Byte) (s : Symbolizer Context) : Symbolizer Context :=
  match strstr line moduleWord with
  | none => s
  | some epc =>
    match sscanf iopFormat epc with
    | [.text name, .number pc] =>
      annotateSymbol resolve name c.iopTool (findElf name c.modules) pc { s with exception := none }
    | _ => s

/-- `annotate_line` -/
def annotateLine (line : CStr) (s : Symbolizer Context) : Symbolizer Context :=
  let s := { s with
    out := s.out ++ line.bytes
    exception := enter line.bytes s.exception }
  match s.exception, c.eeElf with
  | some .ee, some elf => annotateEe c resolve elf line.bytes s
  | some .iop, _ => annotateIop c resolve line.bytes s
  | _, _ => s

/-- The lines of a log, one after another. -/
def annotate (s : Symbolizer Context) (lines : List CStr) : Symbolizer Context :=
  lines.foldl (fun s line => annotateLine c resolve line s) s

end Annotate

/-! ## Episodes -/

/-- The header a line contains. -/
def header (line : CStr) : Option Kind :=
  if iopHeader <:+: line.bytes then some .iop
  else if eeHeader <:+: line.bytes then some .ee
  else none

/-- The address after the first `EPC ` of a line. -/
def eeAddress (line : CStr) : Option (BitVec 32) := do
  let epc ← strstr line.bytes epcWord
  let (pc, _) ← scanHex (epc.drop epcWord.length)
  return pc

/-- The module and the relative address after the first `Module Name "` of a line: the name has at
most 127 characters and is followed by `" Relative EPC `, with any white space for a blank. -/
def iopAddress (line : CStr) : Option (List Byte × BitVec 32) := do
  let rest ← strstr line.bytes moduleWord
  let rest := rest.drop moduleWord.length
  let name := rest.takeWhile (· ≠ ascii '"')
  guard (1 ≤ name.length ∧ name.length ≤ 127)
  let rest ← after? (literal "\"") (rest.drop name.length)
  let rest ← after? (literal "Relative") (rest.dropWhile isSpace)
  let rest ← after? (literal "EPC") (rest.dropWhile isSpace)
  let (pc, _) ← scanHex rest
  return (name, pc)

/-- A report of an exception: its kind, and its lines up to the next header. -/
structure Episode where
  kind : Kind
  lines : List CStr
  deriving DecidableEq, Repr

def episodes : List CStr → List Episode
  | [] => []
  | line :: lines =>
    match header line with
    | none => episodes lines
    | some kind => ⟨kind, line :: lines.takeWhile (header · = none)⟩ :: episodes lines

/-- The call an episode makes. It ends at its first line with an address of its kind. -/
def Episode.call (c : Config) (e : Episode) : Option Call :=
  match e.kind with
  | .ee => do
    let elf ← c.eeElf
    let pc ← e.lines.findSome? eeAddress
    return ⟨c.eeTool, elf, pc⟩
  | .iop => do
    let (name, pc) ← e.lines.findSome? iopAddress
    let m ← c.modules.find? fun m => name.map tolower = m.name.bytes.map tolower
    let elf ← m.elf
    return ⟨c.iopTool, elf, pc⟩

end Symbolize

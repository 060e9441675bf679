import Mathlib.Data.Set.Insert
import Ps2Client.CMemory.Lines
import Ps2Client.CMemory.Numbers
import Ps2Client.History.Contract
import Ps2Client.Symbolize.Annotate

/-!
# The resolver of ps2symbolize

`resolve_symbol` runs `addr2line` in a child, and reads the first line that the child prints from a
pipe. The system is a parameter: any answers to the calls. A stream is named by its descriptor.
-/

namespace Symbolize

open CMemory History

inductive SystemCall where
  | pipe
  | actionsInit
  /-- `posix_spawnp`, with actions that make `output` the standard output of the child, and close
  `input` and `output` there. -/
  | spawn (tool : List Byte) (argv : List (List Byte)) (input output : Int)
  | actionsDestroy
  | close (fd : Int)
  | fdopen (fd : Int)
  | fgets (stream : Int) (size : Nat)
  | fclose (stream : Int)
  | waitpid (pid : Int)
  deriving DecidableEq, Repr

/-- What a call returns: the two ends of a pipe, a child, the status of a child or the bytes that
`fgets` has stored, unless the call fails. -/
def SystemCall.Result : SystemCall → Type
  | .pipe => Option (Int × Int)
  | .spawn .. => Option Int
  | .fgets .. => Option (List Byte)
  | .waitpid _ => Option Word
  | .actionsInit | .fdopen _ => Bool
  | .actionsDestroy | .close _ | .fclose _ => Unit

/-- A system with states in `κ`. -/
structure System (κ : Type) where
  call : (c : SystemCall) → κ → c.Result × κ

structure SystemEvent where
  call : SystemCall
  result : call.Result

/-- The calls that have been made, with their results, and the state of the system. -/
structure Tools (κ : Type) where
  events : List SystemEvent
  state : κ

section Perform

variable {κ : Type} (k : System κ) (t : Tools κ)

def System.perform (c : SystemCall) : c.Result × Tools κ :=
  ((k.call c t.state).1, ⟨t.events ++ [⟨c, (k.call c t.state).1⟩], (k.call c t.state).2⟩)

abbrev System.pipe : Option (Int × Int) × Tools κ := k.perform t .pipe
abbrev System.actionsInit : Bool × Tools κ := k.perform t .actionsInit
abbrev System.spawn (call : Call) (argv : List (List Byte)) (input output : Int) :
    Option Int × Tools κ := k.perform t (.spawn call.tool.bytes argv input output)
abbrev System.actionsDestroy : Tools κ := (k.perform t .actionsDestroy).2
abbrev System.close (fd : Int) : Tools κ := (k.perform t (.close fd)).2
abbrev System.fdopen (fd : Int) : Bool × Tools κ := k.perform t (.fdopen fd)
abbrev System.fgets (stream : Int) (size : Nat) : Option (List Byte) × Tools κ :=
  k.perform t (.fgets stream size)
abbrev System.fclose (stream : Int) : Tools κ := (k.perform t (.fclose stream)).2
abbrev System.waitpid (pid : Int) : Option Word × Tools κ := k.perform t (.waitpid pid)

end Perform

/-! ## The arguments of the tool -/

def hexDigit (n : Nat) : Byte := .ofNat 8 (if n < 10 then 0x30 + n else 0x61 + (n - 10))

/-- The last `width` digits of a number in base 16. -/
def hexDigits : Nat → Nat → List Byte
  | 0, _ => []
  | width + 1, n => hexDigits width (n / 16) ++ [hexDigit (n % 16)]

/-- `"0x%08x"` -/
def formatPc (pc : Word) : List Byte := literal "0x" ++ hexDigits 8 pc.toNat

def toolArgv (call : Call) : List (List Byte) :=
  [call.tool.bytes, literal "-f", literal "-C", literal "-p", literal "-e", call.elf.bytes,
    formatPc call.pc]

/-! ## `resolve_symbol` -/

/-- `WIFEXITED(status) && !WEXITSTATUS(status)` -/
def succeeded (status : Word) : Bool := status &&& 0x7f == 0 && status >>> 8 &&& 0xff == 0

/-- `output[strcspn(output, "\r\n")] = '\0'` -/
def firstLine (output : List Byte) : List Byte :=
  (cstr output).takeWhile fun b => b ≠ 0x0d ∧ b ≠ newline

variable {κ : Type} (k : System κ)

/-- The end of `resolve_symbol`, with what the child has printed. -/
def conclude (pid : Int) (output : List Byte) (t : Tools κ) : (Int × List Byte) × Tools κ :=
  let (status, t) := k.waitpid t pid
  if !status.any succeeded then ((-1, output), t) else
    let symbol := firstLine output
    if symbol = [] ∨ literal "??" <+: symbol then ((0, symbol), t) else ((1, symbol), t)

/-- `resolve_symbol` from the point where the child has been started. -/
def readTool (pid input : Int) (t : Tools κ) : (Int × List Byte) × Tools κ :=
  let (stream, t) := k.fdopen t input
  if !stream then
    let t := k.close t input
    ((-1, []), (k.waitpid t pid).2)
  else
    let (line, t) := k.fgets t input 1024
    let t := k.fclose t input
    conclude k pid (line.getD []) t

/-- `resolve_symbol` from the point where the pipe is there. -/
def runTool (call : Call) (input output : Int) (t : Tools κ) : (Int × List Byte) × Tools κ :=
  let (initialised, t) := k.actionsInit t
  if !initialised then
    let t := k.close t input
    ((-1, []), k.close t output)
  else
    let (pid, t) := k.spawn t call (toolArgv call) input output
    let t := k.actionsDestroy t
    let t := k.close t output
    match pid with
    | none => ((-1, []), k.close t input)
    | some pid => readTool k pid input t

/-- `resolve_symbol`. The symbol counts only when the result is positive. -/
def resolveSymbol : Resolver (Tools κ) := fun t call =>
  let (ends, t) := k.pipe t
  match ends with
  | none => ((-1, []), t)
  | some (input, output) => runTool k call input output t

end Symbolize

import Ps2Client.CMemory.Numbers
import Ps2Client.Ps2link.Commands

/-!
# The commands of ps2client

The part of `main` that finds the command on the command line, checks its operands, and calls the
command function of ps2link. `argv` is what follows the name of the command.
-/

namespace Main

open CMemory Network Utility

inductive CommandId where
  | reset | resetcheck | execiop | execee | poweroff | scrdump | netdump | dumpmem | startvu | stopvu
  | dumpreg | gsexec | writemem | iopexcep | listen | ping | console
  deriving DecidableEq, Repr

/-- A command: its name, and the least number of its arguments. -/
structure CommandEntry where
  name : List Byte
  id : CommandId
  args : Nat
  deriving DecidableEq, Repr

def commands : List CommandEntry :=
  [⟨literal "reset", .reset, 0⟩, ⟨literal "resetcheck", .resetcheck, 0⟩,
    ⟨literal "execiop", .execiop, 1⟩, ⟨literal "execee", .execee, 1⟩,
    ⟨literal "poweroff", .poweroff, 0⟩, ⟨literal "scrdump", .scrdump, 0⟩,
    ⟨literal "netdump", .netdump, 0⟩, ⟨literal "dumpmem", .dumpmem, 3⟩,
    ⟨literal "startvu", .startvu, 1⟩, ⟨literal "stopvu", .stopvu, 1⟩,
    ⟨literal "dumpreg", .dumpreg, 2⟩, ⟨literal "gsexec", .gsexec, 2⟩,
    ⟨literal "writemem", .writemem, 3⟩, ⟨literal "iopexcep", .iopexcep, 0⟩,
    ⟨literal "listen", .listen, 0⟩, ⟨literal "ping", .ping, 0⟩, ⟨literal "console", .console, 0⟩]

/-- Register dump types, by name. -/
def regtypes : List (List Byte) :=
  [literal "dma", literal "intc", literal "timer", literal "gs", literal "sif", literal "fifo",
    literal "gif", literal "vif0", literal "vif1", literal "ipu", literal "all", literal "vu0",
    literal "vu1"]

/-- `parse_number`: the value, an `unsigned int`, unless it returns -1. -/
def parseNumber (string : CStr) : Option Word :=
  let (value, rest) := strtoul string.bytes
  if string.bytes = [] ∨ rest ≠ [] then none else some (.ofNat 32 value)

/-- `parse_regtype`, an `int`. -/
def parseRegtype (string : CStr) : Int :=
  match regtypes.idxOf? string.bytes with
  | some i => i
  | none =>
    match parseNumber string with
    | some value => value.toInt
    | none => -1

/-- The number of bytes main finds the arguments of `execiop` and `execee` to take, from
`strnlen(argv[loop0], 257) + 1` for each. It is an `int` there, and as far from its limit as in
`fix_argv`. -/
def argumentsLength (argv : List CStr) : Nat := (argv.map fun a => min a.length 257 + 1).sum

/-- The operand checks: `number0` and `number1`, or nothing when main returns 64. -/
def checkOperands (id : CommandId) (argv : List CStr) : Option (Word × Word) :=
  match id with
  | .dumpmem | .writemem => do
    let number0 ← argv[0]?.bind parseNumber
    let number1 ← argv[1]?.bind parseNumber
    return (number0, number1)
  | .dumpreg => do
    let type := parseRegtype (← argv[0]?)
    if type < 0 then none else return (.ofInt 32 type, 0)
  | .execiop | .execee => if 256 < argumentsLength argv then none else some (0, 0)
  | .startvu | .stopvu | .gsexec => do
    let number0 ← argv[0]?.bind parseNumber
    return (number0, 0)
  | .reset | .resetcheck | .poweroff | .scrdump | .netdump | .iopexcep | .listen | .ping
  | .console => some (0, 0)

/-- The call of the command function, for the commands that have one. The pointer behind the last
argument is null. -/
def dispatch (id : CommandId) (argv : List CStr) (number0 number1 : Word) : Option Ps2link.Command :=
  match id with
  | .reset => some .reset
  | .execiop => some (.execiop (.ofNat 32 argv.length) argv)
  | .execee => some (.execee (.ofNat 32 argv.length) argv)
  | .poweroff => some .poweroff
  | .scrdump => some .scrdump
  | .netdump => some .netdump
  | .dumpmem => some (.dumpmem number0 number1 argv[2]?)
  | .startvu => some (.startvu number0)
  | .stopvu => some (.stopvu number0)
  | .dumpreg => some (.dumpreg number0 argv[1]?)
  | .gsexec => some (.gsexec (number0.setWidth 16) argv[1]?)
  | .writemem => some (.writemem number0 number1 argv[2]?)
  | .iopexcep => some .iopexcep
  | .resetcheck | .listen | .ping | .console => none

/-- The command and its numbers, or nothing when main returns 64. -/
def prepare (name : CStr) (argv : List CStr) : Option (CommandId × Word × Word) := do
  let entry ← commands.find? fun c => c.name = name.bytes
  if argv.length < entry.args then none else
    let numbers ← checkOperands entry.id argv
    if entry.id = .resetcheck ∧ argv.length ≠ 0 then none else return (entry.id, numbers)

/-- What main sends once it is connected and ps2link has answered: a call of a command function, or
nothing. The outer option is empty when main returns 64 instead. -/
def commandSent (name : CStr) (argv : List CStr) : Option (Option Ps2link.Command) := do
  let (id, number0, number1) ← prepare name argv
  return dispatch id argv number0 number1

/-! ## The arguments of `execiop` and `execee` -/

/-- `main` accepts the arguments exactly when `fix_argv` does. The packet is then the arguments,
counted, each with its null, and nulls behind them; otherwise nothing is sent. -/
structure ArgumentsKept (id : CommandId) (argv : List CStr) : Prop where
  accepted_iff : checkOperands id argv ≠ none ↔
    ∀ destination, destination.length = 256 → (fixArgv destination 256 argv).1 = 0
  sent : ∀ number0 number1, checkOperands id argv = some (number0, number1) →
    ∃ c, dispatch id argv number0 number1 = some c ∧
    ∀ e stack s, s.Writable → ∃ packet rest, (c.call e stack s).2.sent = s.sent ++ packet ∧
      packet.length = 266 ∧ (net32 packet 6).toNat = argv.length ∧
      splitStrings (net32 packet 6).toNat (peek packet 10 256) =
        some (argv.map CStr.bytes, rest) ∧ ∀ b ∈ rest, b = 0
  refused : (∃ destination, destination.length = 256 ∧ (fixArgv destination 256 argv).1 < 0) →
    ∀ number0 number1, ∃ c, dispatch id argv number0 number1 = some c ∧
      ∀ e stack s, c.call e stack s = (-1, s)

end Main

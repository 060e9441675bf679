import Ps2Client.CMemory.Options
import Ps2Client.CMemory.Proofs.CStringProofs
import Ps2Client.Main.Operands

/-!
# The command line of ps2client

`main` up to the point where it starts the network, or the observer of a reset: the options, the
command, and the checks of its operands. The checks are those of `prepare`; here the operands are read
from the vector one by one.
-/

namespace Main

open CMemory Utility

def EXIT_USAGE : Int := 64

/-! ## The hostname -/

/-- `hostname` as it is initialised. -/
def initialHostname : List Byte :=
  literal "192.168.0.10" ++ List.replicate 244 0

/-- `snprintf(hostname, sizeof(hostname), "%s", value)` -/
def setHostname (hostname value : List Byte) : List Byte := snprintf hostname 256 value

/-- The loop over the environment. -/
def environment (env : List CStr) (hostname : List Byte) : List Byte :=
  env.foldl (fun hostname entry =>
    if (literal "PS2HOSTNAME=").isPrefixOf entry.bytes then
      setHostname hostname (entry.bytes.drop 12)
    else hostname) hostname

/-- The string in `hostname`. -/
def hostnameString (hostname : List Byte) : CStr := ⟨cstr hostname, zero_notMem_cstr _⟩

/-! ## The options -/

/-- The variables that the options set. -/
structure Settings where
  hostname : List Byte
  timeout : Int
  marker : Option CStr
  deriving DecidableEq, Repr

def initialSettings (env : List CStr) : Settings :=
  ⟨environment env initialHostname, -1, none⟩

def setHost (value : CStr) (s : Settings) : Option Settings :=
  some { s with hostname := setHostname s.hostname value.bytes }

/-- `timeout = atoi(argv[loop0])` -/
def setTimeout (value : CStr) (s : Settings) : Option Settings :=
  some { s with timeout := toInt32 (strtol value.bytes) }

/-- An empty marker is refused. -/
def setMarker (value : CStr) (s : Settings) : Option Settings :=
  if value.bytes = [] then none else some { s with marker := some value }

def option (arg : CStr) : Option (Opt Settings) :=
  if arg.bytes = literal "-h" then
    some ⟨"Error: No hostname was supplied the '-h' option.\n", setHost⟩
  else if arg.bytes = literal "-t" then
    some ⟨"Error: No timeout was supplied the '-t' option.\n", setTimeout⟩
  else if arg.bytes = literal "-e" then
    some ⟨"Error: No marker was supplied the '-e' option.\n", setMarker⟩
  else none

/-- Where `main` gets to. -/
inductive Reached where
  /-- It returns, after a message and perhaps the usage. -/
  | exit (code : Int) (message : Option String) (usage : Bool)
  /-- It calls `ps2client_resetcheck`. -/
  | resetcheck (executable : Option CStr) (hostname : List Byte) (timeout : Int)
  /-- It calls `network_startup`, with `number0` and `number1` for the command. -/
  | startup (hostname : List Byte) (timeout : Int) (marker : Option CStr) (id : CommandId)
      (numbers : Word × Word)
  /-- It reads beyond the null at the end of the vector, or takes the null for a string. -/
  | undefined
  deriving DecidableEq, Repr

/-- The strings `argv[0]` to `argv[n - 1]`. -/
def strings (operand : Nat → Option (Option CStr)) : Nat → Option (List CStr)
  | 0 => some []
  | n + 1 => do
    let front ← strings operand n
    let last ← (operand n).join
    return front ++ [last]

/-- How many operands the check of a command reads, its message included. -/
def operandsRead (id : CommandId) (argc : Nat) : Nat :=
  match id with
  | .dumpmem | .writemem => 2
  | .dumpreg | .startvu | .stopvu | .gsexec => 1
  | .execiop | .execee => argc
  | .reset | .resetcheck | .poweroff | .scrdump | .netdump | .iopexcep | .listen | .ping
  | .console => 0

/-- What is printed when the operand check of a command fails. -/
def checkMessage (id : CommandId) : String :=
  match id with
  | .dumpmem | .writemem => "Error: Bad offset or size. (%s %s)\n"
  | .dumpreg => "Error: Unknown register type. (%s)\n"
  | .execiop | .execee =>
    "Error: The filename and arguments are too long (%d bytes, at most 256 with a null after each).\n"
  | _ => "Error: Bad number. (%s)\n"

/-- `main` from the search of the command on, with `operand k` for `argv[k]`. -/
def findCommand (executable : Option CStr) (settings : Settings) (name : CStr) (argc : Int)
    (operand : Nat → Option (Option CStr)) : Reached :=
  match commands.find? fun c => c.name = name.bytes with
  | none => .exit EXIT_USAGE (some "Error: Unknown command requested. (%s)\n") true
  | some entry =>
    if argc < entry.args then
      .exit EXIT_USAGE (some "Error: Not enough arguments for '%s'.\n") true
    else match strings operand (operandsRead entry.id argc.toNat) with
      | none => .undefined
      | some argv =>
        match checkOperands entry.id argv with
        | none => .exit EXIT_USAGE (some (checkMessage entry.id)) false
        | some numbers =>
          if entry.id = .resetcheck then
            if argc ≠ 0 then
              .exit EXIT_USAGE (some "Error: resetcheck takes no arguments.\n") false
            else .resetcheck executable (cstr settings.hostname)
              (if settings.timeout < 0 then 10 else settings.timeout)
          else .startup (cstr settings.hostname) settings.timeout settings.marker entry.id numbers

def main (env argv : List CStr) : Reached :=
  let executable := (element argv 0).join
  if argv.length < 2 then .exit EXIT_USAGE none true else
  match optionLoop option argv 1 (initialSettings env) with
  | .undefined => .undefined
  | .refused message => .exit EXIT_USAGE (some message) true
  | .done loop0 settings =>
    -- `loop0++; argc -= loop0; argv += loop0;`
    let loop0 := loop0 + 1
    let argc : Int := argv.length - loop0
    if argc < 0 then .exit EXIT_USAGE (some "Error: No command was supplied.\n") true
    else match element argv (loop0 - 1) with
      | some (some name) =>
        findCommand executable settings name argc fun k => element argv (loop0 + k)
      | some none | none => .undefined

/-- The operand that the call of the command function reads after the connection. -/
def operandPassed (id : CommandId) : Option Nat :=
  match id with
  | .dumpmem | .writemem => some 2
  | .dumpreg | .gsexec => some 1
  | _ => none

/-! ## The grammar -/

/-- A pair of an option and its value. -/
def IsPair (p : CStr × CStr) : Prop :=
  p.1.bytes = literal "-h" ∨ p.1.bytes = literal "-t" ∨ p.1.bytes = literal "-e" ∧ p.2.bytes ≠ []

/-- The hostname: the last `-h`, or else what the environment says. -/
def hostnameOf (env : List CStr) (pairs : List (CStr × CStr)) : List Byte :=
  ((lastValue (literal "-h") pairs).map fun v => v.bytes.take 255).getD
    (cstr (environment env initialHostname))

/-- The timeout: the last `-t`, or else none. -/
def timeoutOf (pairs : List (CStr × CStr)) : Int :=
  ((lastValue (literal "-t") pairs).map fun v => toInt32 (strtol v.bytes)).getD (-1)

/-- The marker: the last `-e`, if there is one. -/
def markerOf (pairs : List (CStr × CStr)) : Option CStr := lastValue (literal "-e") pairs

/-- A vector of the grammar: the program, pairs, the name of a command, and at least as many operands
as it takes, which pass its check. `resetcheck` has none. -/
structure Accepted (argv : List CStr) (executable : CStr) (pairs : List (CStr × CStr))
    (entry : CommandEntry) (numbers : Word × Word) (operands : List CStr) : Prop where
  line : ∃ name, argv = executable :: (flatPairs pairs ++ name :: operands) ∧
    entry.name = name.bytes
  pairs : ∀ p ∈ pairs, IsPair p
  command : entry ∈ commands
  enough : entry.args ≤ operands.length
  checked : checkOperands entry.id operands = some numbers
  alone : entry.id = .resetcheck → operands = []

/-- Where a vector of the grammar leads. -/
def reachedFor (env : List CStr) (executable : CStr) (pairs : List (CStr × CStr))
    (entry : CommandEntry) (numbers : Word × Word) : Reached :=
  if entry.id = .resetcheck then
    .resetcheck (some executable) (hostnameOf env pairs)
      (if timeoutOf pairs < 0 then 10 else timeoutOf pairs)
  else .startup (hostnameOf env pairs) (timeoutOf pairs) (markerOf pairs) entry.id numbers

/-- `main` accepts exactly the vectors of the grammar, and reads nothing behind a vector. -/
structure GrammarKept (env argv : List CStr) : Prop where
  defined : main env argv ≠ .undefined
  reached_iff : (∀ code message usage, main env argv ≠ .exit code message usage) ↔
    ∃ executable pairs entry numbers operands,
      Accepted argv executable pairs entry numbers operands
  accepted : ∀ {executable pairs entry numbers operands},
    Accepted argv executable pairs entry numbers operands →
      main env argv = reachedFor env executable pairs entry numbers ∧
        ∀ k, operandPassed entry.id = some k → k < operands.length
  refused : (¬ ∃ executable pairs entry numbers operands,
      Accepted argv executable pairs entry numbers operands) →
    ∃ message usage, main env argv = .exit EXIT_USAGE message usage

end Main

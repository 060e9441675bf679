import Ps2Client.Main.Operands

/-!
# Number operands

The operands of ps2client that are numbers, and the fields of the packets they are sent in.
-/

namespace Main

open CMemory

inductive NumberOperand where
  | dumpmemOffset | dumpmemSize | startvu | stopvu | dumpregType | gsexecSize | writememOffset
  | writememSize
  deriving DecidableEq, Repr

/-- The command that has the operand. -/
def NumberOperand.entry : NumberOperand → CommandEntry
  | .dumpmemOffset | .dumpmemSize => ⟨literal "dumpmem", .dumpmem, 3⟩
  | .startvu => ⟨literal "startvu", .startvu, 1⟩
  | .stopvu => ⟨literal "stopvu", .stopvu, 1⟩
  | .dumpregType => ⟨literal "dumpreg", .dumpreg, 2⟩
  | .gsexecSize => ⟨literal "gsexec", .gsexec, 2⟩
  | .writememOffset | .writememSize => ⟨literal "writemem", .writemem, 3⟩

/-- The place of the operand among the arguments of its command. -/
def NumberOperand.index : NumberOperand → Nat
  | .dumpmemSize | .writememSize => 1
  | .dumpmemOffset | .startvu | .stopvu | .dumpregType | .gsexecSize | .writememOffset => 0

/-- How many of the arguments of the command are numbers. -/
def NumberOperand.numbers : NumberOperand → Nat
  | .dumpmemOffset | .dumpmemSize | .writememOffset | .writememSize => 2
  | .startvu | .stopvu | .dumpregType | .gsexecSize => 1

/-- The number of bits of the field. -/
def NumberOperand.width : NumberOperand → Nat
  | .gsexecSize => 16
  | .dumpmemOffset | .dumpmemSize | .startvu | .stopvu | .dumpregType | .writememOffset
  | .writememSize => 32

/-- The field of the packet, read in network byte order. -/
def NumberOperand.field (k : NumberOperand) (packet : List Byte) : Nat :=
  match k with
  | .gsexecSize => (net16 packet 6).toNat
  | .dumpmemSize | .writememSize => (net32 packet 10).toNat
  | .dumpmemOffset | .startvu | .stopvu | .dumpregType | .writememOffset => (net32 packet 6).toNat

/-- The number spelled by a decimal or `0x` hexadecimal numeral. -/
def spelled (t : List Byte) : Option Nat :=
  if hexPrefix t then
    if (t.drop 2).all (isDigitOf 16) then some (numeral 16 (t.drop 2)) else none
  else if t ≠ [] ∧ t.all (isDigitOf 10) then some (numeral 10 t) else none

/-- Either main returns 64, or the operand is a numeral and the field is the number it spells. A
numeral that does not fit the field is not sent. -/
def NumberOperand.Kept (k : NumberOperand) (name : CStr) (argv : List CStr) (s : CStr) : Prop :=
  (commandSent name argv = none ∨
    ∃ c n, commandSent name argv = some (some c) ∧ spelled s.bytes = some n ∧
      ∀ e stack, k.field (c.packet e stack) = n) ∧
  ∀ n, spelled s.bytes = some n → 2 ^ k.width ≤ n → commandSent name argv = none

/-! ## Which operands are kept -/

/-- The string is no number: behind white space and a sign, not all of it is a decimal, octal or
hexadecimal integer. -/
def NoNumber (s : CStr) : Prop := constant (magnitude s.bytes) = none

/-- Too few arguments, one that should be a number and is none, or a register type that is negative
as an `int`. -/
def NumberOperand.Rejected (k : NumberOperand) (argv : List CStr) : Prop :=
  argv.length < k.entry.args ∨ (∃ t ∈ argv.take k.numbers, NoNumber t) ∨
    k = .dumpregType ∧ ∃ t ∈ argv.take 1, ∃ n, constant (magnitude t.bytes) = some n ∧
      2 ^ 31 ≤ signed (negative t.bytes) n % 2 ^ 32

/-- A number without white space and sign that fits the field, and is not written with a leading 0
unless it has one significant digit. -/
def NumberOperand.Plain (k : NumberOperand) (s : CStr) : Prop :=
  magnitude s.bytes = s.bytes ∧ ∃ n, constant s.bytes = some n ∧ n < 2 ^ k.width ∧
    ((splitBase s.bytes).1 = 8 → n < 8)

end Main

import Ps2Client.CMemory.CString

/-!
# Argument vectors

What `main` gets: `argc` strings and a null pointer behind them. Options come first, each followed by
its value; the loop over them stops at the first string that is not one, or at the null.
-/

namespace CMemory

/-- `argv[k]`: a string, or the null behind the last one. Beyond it there is nothing to read. -/
def element (argv : List CStr) (k : Nat) : Option (Option CStr) := (argv.map some ++ [none])[k]?

theorem lt_of_element {argv : List CStr} {k : Nat} {arg : CStr}
    (h : element argv k = some (some arg)) : k < argv.length := by
  rw [element, List.getElem?_append] at h
  split at h
  · rename_i hlt
    rwa [List.length_map] at hlt
  · rw [List.getElem?_singleton] at h
    split at h <;> cases h

/-- An option that takes a value. -/
structure Opt (α : Type) where
  /-- What is printed when there is no value, or not the right one. -/
  missing : String
  set : CStr → α → Option α

/-- How a loop over the options ends: at the element `loop0`, with an error, or by reading what is
not there. -/
inductive Parsed (α : Type) where
  | done (loop0 : Nat) (settings : α)
  | refused (message : String)
  | undefined
  deriving DecidableEq, Repr

variable {α : Type} (option : CStr → Option (Opt α))

/-- The loop over the options, from `argv[loop0]` on. -/
def optionLoop (argv : List CStr) (loop0 : Nat) (settings : α) : Parsed α :=
  match _harg : element argv loop0 with
  | none => .undefined
  | some none => .done loop0 settings
  | some (some arg) =>
    match option arg with
    | none => .done loop0 settings
    | some o =>
      if argv.length = loop0 + 1 then .refused o.missing else
      match element argv (loop0 + 1) with
      | some (some value) =>
        match o.set value settings with
        | some settings => optionLoop argv (loop0 + 2) settings
        | none => .refused o.missing
      | some none | none => .undefined
termination_by argv.length - loop0
decreasing_by
  have hlt := lt_of_element _harg
  omega

/-! ## Options as pairs -/

/-- The strings of some pairs of an option and its value. -/
def flatPairs (pairs : List (CStr × CStr)) : List CStr := pairs.flatMap fun p => [p.1, p.2]

/-- The settings after some pairs, the later ones on top of the earlier ones. -/
def setPairs : List (CStr × CStr) → α → Option α
  | [], settings => some settings
  | p :: pairs, settings => do
    let o ← option p.1
    let settings ← o.set p.2 settings
    setPairs pairs settings

/-- The value of the last pair with the option `key`. -/
def lastValue (key : List Byte) (pairs : List (CStr × CStr)) : Option CStr :=
  (pairs.reverse.find? fun p => p.1.bytes = key).map Prod.snd

/-- A vector with pairs of options that make the settings `settings'` of `settings`, a command that
is no option, and its operands. -/
def CommandLine (settings : α) (argv : List CStr) (name : CStr) (operands : List CStr)
    (settings' : α) : Prop :=
  ∃ program pairs, argv = program :: (flatPairs pairs ++ name :: operands) ∧
    setPairs option pairs settings = some settings' ∧ option name = none

/-- Take the options off a list of strings. -/
def takeOptions : List CStr → α → Except String (List CStr × α)
  | [], settings => .ok ([], settings)
  | [arg], settings =>
    match option arg with
    | none => .ok ([arg], settings)
    | some o => .error o.missing
  | arg :: value :: rest, settings =>
    match option arg with
    | none => .ok (arg :: value :: rest, settings)
    | some o =>
      match o.set value settings with
      | some settings => takeOptions rest settings
      | none => .error o.missing

end CMemory

import Ps2Client.Fsclient.Copy

/-!
# What a copy leaves behind

A copy that fails, at whichever step, closes what it opened and reports the failure.
-/

namespace Fsclient

open CMemory
open Ps2link (Host HostCall)

/-- The step failed: what it returned is negative, or no number of bytes that makes sense. -/
def Step.Failed : Step → Prop
  | .openSource fd | .openDestination fd => fd < 0
  | .seekEnd result | .seekSet result => result < 0
  | .read count result _ => result ≤ 0 ∨ count < result
  | .write data result => result ≤ 0 ∨ data.length < result
  | .closeSource _ result | .closeDestination _ result => result < 0

/-- A descriptor of one of the two files. -/
inductive Descriptor where
  | source (fd : Int)
  | destination (fd : Int)
  deriving DecidableEq, Repr

/-- The descriptor that a step successfully opened. -/
def Step.opened : Step → Option Descriptor
  | .openSource fd => if 0 ≤ fd then some (.source fd) else none
  | .openDestination fd => if 0 ≤ fd then some (.destination fd) else none
  | _ => none

/-- The descriptor that a step closes, successfully or not. -/
def Step.closed : Step → Option Descriptor
  | .closeSource fd _ => some (.source fd)
  | .closeDestination fd _ => some (.destination fd)
  | _ => none

/-- A copy that took the steps `steps` and returned `status` cleaned up after itself. -/
structure Tidy (status : Int) (steps : List Step) : Prop where
  /-- What was opened, and nothing else, is closed, once and at the end. -/
  closes : ∃ body closing, steps = body ++ closing ∧ (∀ s ∈ body, s.closed = none) ∧
    (∀ s ∈ closing, s.closed ≠ none) ∧ closing.filterMap Step.closed = body.filterMap Step.opened
  /-- After a step that failed only closes follow. -/
  stops : ∀ before s after, steps = before ++ s :: after → s.Failed → ∀ t ∈ after, t.closed ≠ none
  status : status = 0 ∧ (∀ s ∈ steps, ¬ s.Failed) ∨ status = -1 ∧ ∃ s ∈ steps, s.Failed

/-- The length of the source is taken for an error: it can be asked for, but as an `int` it is
negative, and nothing else fails. -/
def Ends.Misjudges {μ : Type} (E : Ends μ) (w : μ) : Prop :=
  let f := E.openSource w
  let n := E.seekEnd f.1 f.2
  0 ≤ f.1 ∧ 0 ≤ n.1 ∧ toInt32 n.1 < 0 ∧ 0 ≤ (E.closeSource f.1 n.2).1

/-- What POSIX says of the numbers that `read`, `write` and `lseek` return. -/
structure Bounded {σ : Type} (h : Host σ) : Prop where
  read : ∀ (fd : Int) (size : Nat) (st : σ) (data : List Byte),
    (h.call (.read fd size) st).1 = some data → data.length ≤ size
  write : ∀ (fd : Int) (data : List Byte) (st : σ),
    ∃ n : Int, (h.call (.write fd data) st).1 = n ∧ -1 ≤ n ∧ n ≤ data.length
  lseek : ∀ (fd offset whence : Int) (st : σ),
    ∃ n : Int, (h.call (.lseek fd offset whence) st).1 = n ∧ -1 ≤ n

/-- The host can say how long `source` is, but as an `int` that length is negative, and the file is
closed again without an error. -/
def TooLong {σ : Type} (h : Host σ) (source : CStr) (w : World σ) : Prop :=
  let fd := hostCall h (.open source.bytes Utility.O_RDONLY 0) w
  let n := hostCall h (.lseek fd.1 0 2) fd.2
  (0 : Int) ≤ fd.1 ∧ (0 : Int) ≤ n.1 ∧ toInt32 n.1 < 0 ∧
    (0 : Int) ≤ (hostCall h (.close fd.1) n.2).1

/-- A host with one file, of the length `n`, that can be opened and closed, but not read. -/
def lengthHost (n : Int) : Host Unit where
  call c u := match c with
    | .open .. => ((3 : Int), u)
    | .lseek _ _ whence => ((if whence = 2 then n else 0 : Int), u)
    | .close _ => ((0 : Int), u)
    | c => (c.failure, u)
  timeMs u := (0, u)
  localtime _ := none
  uninit size u := (List.replicate size 0, u)
  uninitStat u := (⟨0, 0, 0, 0, 0⟩, u)

end Fsclient

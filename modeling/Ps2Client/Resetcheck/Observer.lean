import Ps2Client.CMemory.Bytes

/-!
# `resetcheck`

`ps2client_resetcheck` runs `ping` and `reset` of ps2client as processes of their own, and looks at
the clock in between. What becomes of each process and what the clock says is given as two sequences,
of which the program takes the next element each time. Events are recorded in order.
-/

namespace Resetcheck

open CMemory

/-- The commands it runs. -/
inductive Child where
  | ping
  | reset
  deriving DecidableEq, Repr

/-- What becomes of a process. A `waitpid` that is interrupted is tried again. -/
inductive ChildRun where
  | noFork
  | noWait
  | exited (status : Byte)
  | killed
  deriving DecidableEq, Repr

/-- `run_command` -/
def runCommand : ChildRun → Int
  | .exited status => status.toNat
  | .noFork | .noWait | .killed => -1

inductive Event where
  /-- The clock is read. -/
  | clock (t : Int)
  /-- A command is run, with the result of `run_command`. -/
  | ran (child : Child) (status : Int)
  /-- `sleep_ms(150)` -/
  | slept
  deriving DecidableEq, Repr

structure World where
  clock : Nat → Int
  child : Nat → ChildRun

structure Observer where
  /-- How often the clock was read. -/
  readings : Nat
  /-- How many commands were run. -/
  children : Nat
  events : List Event
  deriving DecidableEq, Repr

def Observer.initial : Observer := ⟨0, 0, []⟩

def PS2CLIENT_EXIT_OK : Int := 0
def PS2CLIENT_EXIT_USAGE : Int := 64
def PS2CLIENT_EXIT_NOCONNECT : Int := 69
def PS2CLIENT_EXIT_TIMEOUT : Int := 124

variable (w : World)

/-- `time_ms` -/
def Observer.timeMs (o : Observer) : Int × Observer :=
  (w.clock o.readings,
    { o with readings := o.readings + 1, events := o.events ++ [.clock (w.clock o.readings)] })

def Observer.run (child : Child) (o : Observer) : Int × Observer :=
  (runCommand (w.child o.children),
    { o with
      children := o.children + 1
      events := o.events ++ [.ran child (runCommand (w.child o.children))] })

/-- `sleep_ms(150)`, which only takes time. -/
def Observer.sleepMs (o : Observer) : Observer := { o with events := o.events ++ [.slept] }

/-- The loop of `ps2client_resetcheck`, for at most `fuel` rounds. -/
def pollLoop (deadline : Int) : Nat → Bool → Observer → Option Int × Observer
  | 0, _, o => (none, o)
  | fuel + 1, sawOutage, o =>
    let (t, o) := o.timeMs w
    if t < deadline then
      let (status, o) := o.run w .ping
      if status = PS2CLIENT_EXIT_OK ∧ sawOutage then (some PS2CLIENT_EXIT_OK, o) else
        let (t, o) := o.timeMs w
        let o := if t < deadline then o.sleepMs else o
        pollLoop deadline fuel (sawOutage || status != PS2CLIENT_EXIT_OK) o
    else (some PS2CLIENT_EXIT_TIMEOUT, o)

/-- `ps2client_resetcheck`, with at most `fuel` rounds of its loop. -/
def resetcheck (fuel : Nat) (timeoutSeconds : Int) : Option Int × Observer :=
  if timeoutSeconds < 1 ∨ 120 < timeoutSeconds then
    (some PS2CLIENT_EXIT_USAGE, .initial)
  else
    let (status, o) := Observer.initial.run w .ping
    if status ≠ PS2CLIENT_EXIT_OK then (some PS2CLIENT_EXIT_NOCONNECT, o) else
      let (status, o) := o.run w .reset
      if status ≠ PS2CLIENT_EXIT_OK then (some PS2CLIENT_EXIT_NOCONNECT, o) else
        let (t, o) := o.timeMs w
        pollLoop w (t + timeoutSeconds * 1000) fuel false o

/-- The events of some rounds of the loop that starts with `sawOutage`, and the result if it has
ended. -/
inductive Polled (deadline : Int) : Bool → List Event → Option Int → Prop where
  | stopped (sawOutage : Bool) : Polled deadline sawOutage [] none
  | late (sawOutage : Bool) {t : Int} (h : ¬ t < deadline) :
    Polled deadline sawOutage [.clock t] (some PS2CLIENT_EXIT_TIMEOUT)
  | recovered {t : Int} (h : t < deadline) :
    Polled deadline true [.clock t, .ran .ping 0] (some PS2CLIENT_EXIT_OK)
  | again {sawOutage : Bool} {t t' status : Int} {pause events : List Event} {result : Option Int}
    (h : t < deadline) (hstatus : ¬ (status = 0 ∧ sawOutage = true))
    (hpause : pause = [] ∨ pause = [.slept])
    (rest : Polled deadline (sawOutage || status != 0) events result) :
    Polled deadline sawOutage
      (.clock t :: .ran .ping status :: .clock t' :: (pause ++ events)) result

/-! ## What it may do -/

/-- The commands that were run, with their results. -/
def runs (events : List Event) : List (Child × Int) :=
  events.filterMap fun
    | .ran child status => some (child, status)
    | _ => none

end Resetcheck

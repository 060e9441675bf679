import Ps2Client.CMemory.Bounded
import Ps2Client.Main.Operands
import Ps2Client.Ps2link.Connect

/-!
# `ping`

The end of `main` for the command `ping`. The handshake is a parameter: what it does with the time it
is given is in the modules on the handshake.
-/

namespace Main

open CMemory Network Ps2link

/-! ## Flags -/

def NEEDS_HOST : Word := 1
def NO_WAIT : Word := 2

/-- The flags in the table of the commands. -/
def flags : CommandId → Word
  | .execiop | .execee | .dumpmem | .dumpreg | .gsexec | .writemem | .ping => NEEDS_HOST
  | .reset | .resetcheck | .poweroff | .scrdump | .netdump | .startvu | .stopvu | .iopexcep => NO_WAIT
  | .listen | .console => 0

/-- What `main` connects for a command. -/
def what (id : CommandId) : Word :=
  (if id ≠ .console then CONNECT_COMMAND else 0) |||
    (if flags id &&& NEEDS_HOST ≠ 0 ∨ id = .listen then CONNECT_REQUEST else 0) |||
    (if flags id &&& NO_WAIT = 0 ∧ id ≠ .ping then CONNECT_CONSOLE else 0)

/-! ## The command -/

/-- What `main` gives to `ps2link_connect` and, when it gets there, to `ps2link_handshake`; and its
exit status and message. -/
structure Ping where
  limit : Int
  budget : Option Int
  status : Int
  message : Option String
  deriving DecidableEq, Repr

/-- `timeout > 0 ? timeout * 1000 : 2000` -/
def limit? (timeout : Int) : Option Int := if 0 < timeout then int? (timeout * 1000) else some 2000

variable {σ : Type} (k : Kernel σ) (handshake : Int → σ → Int × σ)

/-- The call of `ps2link_handshake`, and what comes behind it. -/
def pingHandshake (limit budget : Int) (s : Sockets) (n : Net σ) : Ping × Net σ :=
  let h := handshake budget n.kernel
  let n := disconnect k s { n with kernel := h.2 }
  if h.1 < 0 then
    (⟨limit, some budget, EXIT_NOCONNECT, some "ps2link at %s is not answering.\n"⟩, n)
  else (⟨limit, some budget, EXIT_OK, some "ps2link at %s answered in %d ms.\n"⟩, n)

/-- `ping`; there is no result when the arithmetic overflows. -/
def ping (hostname : List Byte) (timeout : Int) (n : Net σ) : Option (Ping × Net σ) :=
  (limit? timeout).bind fun limit =>
    let start := k.readClock n
    let c := connect k hostname (what .ping) limit start.2
    if c.result ≠ 0 then some (⟨limit, none, c.result, c.message⟩, c.net) else
      let now := k.readClock c.net
      (int? (limit - toInt32 (now.1 - start.1))).map fun budget =>
        pingHandshake k handshake limit budget c.sockets now.2

/-! ## The time budget -/

/-- The time to try, as a number. -/
def tryFor (timeout : Int) : Int := if 0 < timeout then 1000 * timeout else 2000

/-- `ps2link_connect` with a limit, called when the clock has been read. -/
def connecting (hostname : List Byte) (limit : Int) (n : Net σ) : Connected σ :=
  connect k hostname (what .ping) limit (k.readClock n).2

/-- The time spent connecting. -/
def connectTime (hostname : List Byte) (limit : Int) (n : Net σ) : Int :=
  (k.readClock (connecting k hostname limit n).net).1 - (k.readClock n).1

/-- `ping` tries to connect for the time that was asked for and does not wait forever, and if it is
connected it gives the handshake what is left of that time. -/
def BudgetKept (hostname : List Byte) (timeout : Int) (st : σ) : Prop :=
  let n : Net σ := ⟨st, []⟩
  ∃ run end', ping k handshake hostname timeout n = some (run, end') ∧
    run.limit = tryFor timeout ∧ 0 ≤ run.limit ∧ Network.Bounded end'.calls ∧
    run.budget = if (connecting k hostname run.limit n).result = 0 then
      some (run.limit - connectTime k hostname run.limit n) else none

end Main

import Mathlib.Logic.Relation
import Ps2Client.History.Past
import Ps2Client.Ps2link.Commands
import Ps2Client.Ps2link.Framing

/-!
# The handshake

`ps2link_handshake` has the ps2 dump a few registers to a file that does not exist, and waits until
the request thread has seen that file opened and closed. The request thread serves requests
meanwhile, with any arguments and any results of the host. What the handshake reads is set at one
point of serving a request, so serving it is one step.
-/

namespace Ps2link

open CMemory Network Utility

/-! ## What the host has been asked -/

/-- A call of the host with its result. -/
abbrev HostEvent : Type := (c : HostCall) × c.Result

/-- A host that also keeps a record of its calls. -/
def Host.recording {σ : Type} (h : Host σ) : Host (σ × List HostEvent) where
  call c s := ((h.call c s.1).1, (h.call c s.1).2, s.2 ++ [⟨c, (h.call c s.1).1⟩])
  timeMs s := ((h.timeMs s.1).1, (h.timeMs s.1).2, s.2)
  localtime := h.localtime
  uninit size s := ((h.uninit size s.1).1, (h.uninit size s.1).2, s.2)
  uninitStat s := ((h.uninitStat s.1).1, (h.uninitStat s.1).2, s.2)

/-- What a descriptor stands for. -/
inductive Opened where
  | file (path : List Byte)
  | stream (dir : Nat)
  deriving DecidableEq, Repr

section

variable (dirfd : Nat → Int)

/-- What each descriptor stands for after one more call: `open` and `opendir` take a descriptor,
`close` and `closedir` give one back. `dirfd` gives the descriptor of each directory stream. -/
def describe (table : Int → Option Opened) (ev : HostEvent) : Int → Option Opened :=
  match ev with
  | ⟨.open path _ _, (fd : Int)⟩ =>
    if 0 ≤ fd then Function.update table fd (some (.file path)) else table
  | ⟨.close fd, _⟩ => Function.update table fd none
  | ⟨.opendir _, (result : Option Nat)⟩ =>
    match result with
    | some dir => Function.update table (dirfd dir) (some (.stream dir))
    | none => table
  | ⟨.closedir dir, _⟩ => Function.update table (dirfd dir) none
  | _ => table

/-- What is open after some calls, by descriptors. -/
def openFiles (log : List HostEvent) : Int → Option Opened := log.foldl (describe dirfd) fun _ => none

/-- Every `open` and `opendir` has taken a descriptor that was not in use, as POSIX has it. -/
def FreshDescriptors (log : List HostEvent) : Prop :=
  History.Always (fun before ev =>
    match ev with
    | ⟨.open _ _ _, (fd : Int)⟩ => 0 ≤ fd → openFiles dirfd before fd = none
    | ⟨.opendir _, (result : Option Nat)⟩ =>
      ∀ dir, result = some dir → openFiles dirfd before (dirfd dir) = none
    | _ => True) log

end

/-! ## Requests that were served -/

/-- A request that was served: the host calls made for it, and what was sent. -/
structure Served where
  op : Operation
  log : List HostEvent
  sent : List Byte

/-- An `open` of the file of the handshake. -/
def Operation.IsPing (op : Operation) : Prop := ∃ flags, op = .open PING_PATHNAME flags

/-- An `open` of the file of the handshake that gets the descriptor `fd`: only the null device is
opened, and `fd` is the result in the response, as far as the connection takes it. -/
def Served.Pings (r : Served) (fd : Int) : Prop :=
  r.op.IsPing ∧ r.log = [⟨.open NULL_DEVICE O_WRONLY 0, fd⟩] ∧
    r.sent <+: be32 RESPONSE_OPEN ++ (be16 10 ++ be32 (.ofInt 32 fd))

/-- A `close` of the descriptor `fd`. -/
def Served.Closes (r : Served) (fd : Int) : Prop := ∃ w : Word, r.op = .close w ∧ w.toInt = fd

/-- The descriptor `fd` was the answer to the last `open` of the file of the handshake, and has not
been closed since. -/
def PingHeld (fd : Int) (history : List Served) : Prop :=
  History.Since (·.Pings fd) (fun r => ¬ r.op.IsPing ∧ ¬ r.Closes fd) history

/-- The file of the handshake was opened with some descriptor, which was closed while it was held. -/
def PingAnswered (history : List Served) : Prop :=
  History.Once (fun before r => ∃ fd, 0 ≤ fd ∧ PingHeld fd before ∧ r.Closes fd) history

/-! ## The two threads -/

/-- Where `ps2link_handshake` is. -/
inductive HandshakePc where
  | entry
  /-- At the condition of the loop. -/
  | test (start next : Int)
  /-- The handshake was not answered yet. -/
  | unanswered (start next : Int)
  /-- The time is not over at `now`. -/
  | early (start next now : Int)
  /-- The handshake was answered. -/
  | answered (start : Int)
  | done (result : Int)
  deriving DecidableEq, Repr

/-- The client, with what the request thread has served and what the handshake has sent. -/
structure Meeting (σ : Type) where
  client : Client (σ × List HostEvent)
  history : List Served
  pc : HandshakePc
  commands : List Command

/-- The dump of `PS2LINK_PING_REGS` to `PS2LINK_PING_PATHNAME`. -/
def pingCommand : Command := .dumpreg 1 (some ⟨PING_PATHNAME, by decide⟩)

variable {σ : Type} (h : Host σ) (e : Endian)

/-- The process when the threads are created. -/
def Meeting.initial (host : σ) (sock : Socket) : Meeting σ :=
  ⟨.initial (host, []) sock, [], .entry, []⟩

/-- The next step of `ps2link_handshake`, at the time `now`. -/
def handshakeStep (timeoutMs now : Int) (m : Meeting σ) : Meeting σ :=
  match m.pc with
  | .entry => { m with pc := .test now now }
  | .test start next =>
    if m.client.pingAnswered then { m with pc := .answered start }
    else { m with pc := .unanswered start next }
  | .unanswered start next =>
    if timeoutMs ≤ now - start then { m with pc := .done (-1) }
    else { m with pc := .early start next now }
  | .early start next now =>
    if m.client.lost then { m with pc := .done (-1) }
    else if next ≤ now then
      { m with pc := .test start (now + 1000), commands := m.commands ++ [pingCommand] }
    else { m with pc := .test start next }
  | .answered start => { m with pc := .done (toInt32 (now - start)) }
  | .done _ => m

/-- The request in the buffer `packet` is served, when the connection is in the state `sock`. -/
def Meeting.serve (sock : Socket) (k : Kind) (packet : List Byte) (m : Meeting σ) : Meeting σ :=
  let s := { m.client with sock := sock }
  let s' := (dispatch h.recording e packet s).2.2
  { m with
    client := s'
    history := m.history ++
      [⟨k.decode e packet, s'.host.2.drop s.host.2.length, answer s s'⟩] }

/-- A step of one of the two threads, or of the world around them. -/
inductive HandshakeStep (timeoutMs : Int) : Meeting σ → Meeting σ → Prop where
  | handshake (now : Int) (m : Meeting σ) (hlive : m.client.crashed = false) :
    HandshakeStep timeoutMs m (handshakeStep timeoutMs now m)
  /-- The request thread has received a request and serves it. -/
  | serve (sock : Socket) (k : Kind) (packet : List Byte) (m : Meeting σ)
    (hlive : m.client.crashed = false) (hk : net32 packet 0 = k.request) :
    HandshakeStep timeoutMs m (m.serve h e sock k packet)
  /-- Between two requests the request thread records activity or ends, and the host and the
  connection may change. -/
  | between (host : σ) (sock : Socket) (activity : Int) (lost : Bool) (m : Meeting σ) :
    HandshakeStep timeoutMs m { m with client := { m.client with
      host := (host, m.client.host.2), sock := sock, activity := activity, lost := lost } }

/-- A run of the two threads, in any interleaving. -/
abbrev HandshakeRun (timeoutMs : Int) : Meeting σ → Meeting σ → Prop :=
  Relation.ReflTransGen (HandshakeStep h e timeoutMs)

variable (dirfd : Nat → Int)

/-- If a `close` is served between `m` and `m'`, it does not take the descriptor of an open directory
stream away from it. -/
def SparesStreams (m m' : Meeting σ) : Prop :=
  ∀ r fd dir, m'.history = m.history ++ [r] → r.Closes fd →
    openFiles dirfd m.client.host.2 fd ≠ some (.stream dir)

/-- A run in which the ps2 closes no directory stream by its descriptor. -/
abbrev SparingRun (timeoutMs : Int) : Meeting σ → Meeting σ → Prop :=
  Relation.ReflTransGen fun m m' => HandshakeStep h e timeoutMs m m' ∧ SparesStreams dirfd m m'

end Ps2link

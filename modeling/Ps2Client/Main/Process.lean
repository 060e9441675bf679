import Ps2Client.Main.CommandLine
import Ps2Client.Main.Ping
import Ps2Client.Ps2link.Handshake

/-!
# The process

`main` of ps2client from `network_startup` on, for all commands but `ping` and `resetcheck`, which have
a branch of their own in `main`: it connects, waits for the handshake if the command needs the host,
sends the command, waits in the main loop, and disconnects. The console thread and the request thread
run beside it once they are there, and their steps interleave with those of `main` in any order.

The requests that are served do not name the client's own descriptors. A ps2 that writes to one of
these, or closes it, has the files of the client and not its own.
-/

namespace Main

open CMemory Network Ps2link

def CONNECT_TIMEOUT_MS : Int := 3000
def HANDSHAKE_TIMEOUT_MS : Int := 3000

/-- What `main` has found on its command line, for a command that has no branch of its own. -/
structure Invocation where
  hostname : List Byte
  timeout : Int
  marker : Option (List Byte)
  id : CommandId
  argv : List CStr
  number0 : Word
  number1 : Word
  handled : id ≠ .ping ∧ id ≠ .resetcheck
  deriving DecidableEq, Repr

/-- `if (commands[command].flags & NO_WAIT) { timeout = 0; }` -/
def Invocation.wait (i : Invocation) : Int := if flags i.id &&& NO_WAIT ≠ 0 then 0 else i.timeout

/-- The call of the command function, if the command has one. -/
def Invocation.command (i : Invocation) : Option Command := dispatch i.id i.argv i.number0 i.number1

/-- Whether the command is connected to the request port. -/
def Invocation.needsHost (i : Invocation) : Bool := what i.id &&& CONNECT_REQUEST != 0

/-- The invocation of a command line that gets to `network_startup`, except for `ping`. -/
def Reached.invocation (operands : List CStr) : Reached → Option Invocation
  | .startup hostname timeout marker id numbers =>
    if hid : id ≠ .ping ∧ id ≠ .resetcheck then
      some ⟨hostname, timeout, marker.map CStr.bytes, id, operands, numbers.1, numbers.2, hid⟩
    else none
  | .exit .. | .resetcheck .. | .undefined => none

/-- Where the console thread is with a packet. -/
inductive ConsolePhase where
  | waiting
  | received (packet : List Byte)
  | printed (packet : List Byte)
  | scanned
  deriving DecidableEq, Repr

/-- Where `main` is. -/
inductive ProgramPc where
  | starting
  | handshaking
  | performing
  | looping
  /-- Before `ps2link_disconnect`. -/
  | leaving (status : Int)
  | exited (status : Int)
  deriving DecidableEq, Repr

/-- Between `ps2link_connect` and `ps2link_disconnect`. -/
def ProgramPc.Connected : ProgramPc → Prop
  | .starting | .exited _ => False
  | .handshaking | .performing | .looping | .leaving _ => True

/-- A call of a command function: what was on its stack, and its result. -/
structure CommandCall where
  command : Command
  stack : List Byte
  result : Int
  deriving DecidableEq, Repr

/-- The process. The host is that of the request thread, the kernel that of the sockets. -/
structure Process (σ κ : Type) where
  pc : ProgramPc
  /-- The request thread and the handshake. -/
  meeting : Meeting σ
  /-- Where the main loop is. -/
  loop : MainPc
  console : Console
  consolePhase : ConsolePhase
  requestPc : RequestPc
  /-- The packets the console thread has received, and those of them that have been scanned. -/
  received : List (List Byte)
  packets : List (List Byte)
  /-- What the client has printed to `stdout`. -/
  stdout : List Byte
  /-- What `main` has printed to `stderr`. The request thread may print one more, of a bad packet. -/
  messages : List String
  sockets : Sockets
  /-- Whether `ps2link_connect` has created the threads. `ps2link_disconnect` cancels them and does not
  wait for their end, so they may take steps after it. -/
  consoleThread : Bool
  requestThread : Bool
  net : Net κ
  /-- What the command socket has to say of a `send`. -/
  command : Socket
  calls : List CommandCall

variable {σ κ : Type}

def Process.initial (host : σ) (request command : Socket) (kernel : κ) : Process σ κ where
  pc := .starting
  meeting := .initial host request
  loop := .entry
  console := .initial
  consolePhase := .waiting
  requestPc := .serving
  received := []
  packets := []
  stdout := []
  messages := []
  sockets := {}
  consoleThread := false
  requestThread := false
  net := ⟨kernel, []⟩
  command := command
  calls := []

def ConsolePhase.pc : ConsolePhase → ConsolePc
  | .scanned => .scanned
  | .waiting | .received _ | .printed _ => .waiting

/-- What the console thread has received and not yet printed. -/
def ConsolePhase.unprinted : ConsolePhase → List Byte
  | .received packet => packet
  | .waiting | .printed _ | .scanned => []

/-- What it has received and not yet scanned. -/
def ConsolePhase.unscanned : ConsolePhase → List (List Byte)
  | .received packet | .printed packet => [packet]
  | .waiting | .scanned => []

/-- What the main loop and the threads share. -/
def Process.system (p : Process σ κ) : System :=
  ⟨p.console, p.meeting.client.activity, p.meeting.client.lost, p.loop, p.consolePhase.pc, p.requestPc,
    p.packets⟩

def Process.print (message : String) (p : Process σ κ) : Process σ κ :=
  { p with messages := p.messages ++ [message] }

/-- `ps2link_activity = now` -/
def Process.setActivity (now : Int) (p : Process σ κ) : Process σ κ :=
  { p with meeting := { p.meeting with client := { p.meeting.client with activity := now } } }

variable (h : Host σ) (k : Kernel κ) (e : Endian) (i : Invocation)

/-! ## The steps of `main` -/

def Process.leave (status : Int) (p : Process σ κ) : Process σ κ := { p with pc := .leaving status }

/-- `ps2link_disconnect`, and the return from `main`. -/
def Process.exit (status : Int) (p : Process σ κ) : Process σ κ :=
  { p with pc := .exited status, net := Ps2link.disconnect k p.sockets p.net, sockets := {} }

/-- `ps2link_connect`. It reads the clock for the time of the last activity. When it fails, `main`
returns at once. -/
def Process.connect (now : Int) (p : Process σ κ) : Process σ κ :=
  let c := Ps2link.connect k i.hostname (what i.id) CONNECT_TIMEOUT_MS p.net
  let p := { p with net := c.net, sockets := c.sockets, messages := p.messages ++ c.message.toList }
  if c.result ≠ 0 then { p with pc := .exited c.result }
  else { p.setActivity now with
    pc := if i.needsHost then .handshaking else .performing
    consoleThread := 0 ≤ c.sockets.console
    requestThread := 0 ≤ c.sockets.request }

/-- A call of a command function. -/
def Process.send (c : Command) (stack : List Byte) (p : Process σ κ) : Process σ κ :=
  let r := c.call e stack p.command
  { p with command := r.2, calls := p.calls ++ [⟨c, stack, r.1⟩] }

/-- A step of `ps2link_handshake`, which may send its command. -/
def Process.shake (now : Int) (stack : List Byte) (p : Process σ κ) : Process σ κ :=
  let m := handshakeStep HANDSHAKE_TIMEOUT_MS now p.meeting
  if m.commands = p.meeting.commands then { p with meeting := m }
  else { p.send e pingCommand stack with meeting := m }

/-- What `main` does when the handshake has returned. -/
def Process.handshake (now : Int) (stack : List Byte) (p : Process σ κ) : Process σ κ :=
  let p := p.shake e now stack
  match p.meeting.pc with
  | .done result =>
    if result < 0 then
      (p.print "Error: ps2link at %s accepted the connection but does not answer.\n").leave
        EXIT_NOCONNECT
    else { p with pc := .performing }
  | _ => p

/-- The call of the command function. -/
def Process.perform (stack : List Byte) (p : Process σ κ) : Process σ κ :=
  match i.command with
  | none => { p with pc := .looping }
  | some c =>
    if (c.call e stack p.command).1 < 0 then
      ((p.send e c stack).print "Error: Could not send the command.\n").leave EXIT_NOCONNECT
    else { p.send e c stack with pc := .looping }

/-- What the main loop prints when it returns. -/
def loopMessage (pc : MainPc) (status : Int) : List String :=
  match pc with
  | .grace => if status = EXIT_CONNLOST then ["ps2client: ps2link closed the connection.\n"] else []
  | .idle =>
    if status = EXIT_TIMEOUT then
      ["ps2client: no output for %d seconds and no marker; giving up.\n"]
    else []
  | _ => []

/-- At its entry, `ps2link_mainloop` disconnects from the command port. -/
def Process.closeCommand (p : Process σ κ) : Process σ κ :=
  if p.loop = .entry then
    { p with net := closeSocket k p.sockets.command p.net, sockets := { p.sockets with command := -1 } }
  else p

/-- A step of `ps2link_mainloop`, and what `main` does when it has returned. -/
def Process.mainloop (now : Int) (p : Process σ κ) : Process σ κ :=
  let s := mainStep i.marker i.wait now p.system
  let p' := { (p.closeCommand k).setActivity s.activity with console := s.console, loop := s.mainPc }
  match s.mainPc with
  | .done status => { p' with messages := p'.messages ++ loopMessage p.loop status }.leave status
  | _ => p'

def Process.main (now : Int) (stack : List Byte) (p : Process σ κ) : Process σ κ :=
  match p.pc with
  | .starting => p.connect k i now
  | .handshaking => p.handshake e now stack
  | .performing => p.perform e i stack
  | .looping => p.mainloop k i now
  | .leaving status => p.exit k status
  | .exited _ => p

/-! ## The steps of the process -/

/-- The process did not run into a null pointer or over the end of an array. -/
def Process.Live (p : Process σ κ) : Prop := p.meeting.client.crashed = false

/-- The console thread is there. -/
def Process.ConsoleRuns (p : Process σ κ) : Prop :=
  p.Live ∧ p.pc ≠ .starting ∧ p.consoleThread = true

/-- The request thread is there. -/
def Process.RequestRuns (p : Process σ κ) : Prop :=
  p.Live ∧ p.pc ≠ .starting ∧ p.requestThread = true ∧ p.requestPc = .serving

/-- The client's own descriptors: the standard streams and its sockets. -/
def Process.Owns (p : Process σ κ) (fd : Int) : Prop :=
  0 ≤ fd ∧ (fd ≤ 2 ∨ fd = p.sockets.console ∨ fd = p.sockets.request ∨ fd = p.sockets.command)

/-- A step of one of the three threads, or of the world around them. -/
inductive ProcessStep : Process σ κ → Process σ κ → Prop where
  | main (now : Int) (stack : List Byte) (p : Process σ κ) (hlive : p.Live) :
    ProcessStep p (p.main k e i now stack)
  /-- The console thread receives what fits its buffer. -/
  | receive (datagram : List Byte) (p : Process σ κ) (hruns : p.ConsoleRuns)
    (hphase : p.consolePhase = .waiting) :
    ProcessStep p { p with
      consolePhase := .received (datagram.take 65536)
      received := p.received ++ [datagram.take 65536] }
  | print (packet : List Byte) (p : Process σ κ) (hruns : p.ConsoleRuns)
    (hphase : p.consolePhase = .received packet) :
    ProcessStep p { p with consolePhase := .printed packet, stdout := p.stdout ++ packet }
  | scan (packet : List Byte) (p : Process σ κ) (hruns : p.ConsoleRuns)
    (hphase : p.consolePhase = .printed packet) :
    ProcessStep p { p with
      consolePhase := .scanned
      console := scanConsole i.marker packet p.console
      packets := p.packets ++ [packet] }
  | consoleActivity (now : Int) (p : Process σ κ) (hruns : p.ConsoleRuns)
    (hphase : p.consolePhase = .scanned) :
    ProcessStep p { p.setActivity now with consolePhase := .waiting }
  /-- The request thread has received a request, which names no descriptor of the client's own, and
  serves it. -/
  | serve (sock : Socket) (kind : Kind) (packet : List Byte) (p : Process σ κ) (hruns : p.RequestRuns)
    (hkind : net32 packet 0 = kind.request)
    (hforeign : ∀ fd, (kind.decode e packet).descriptor = some fd → ¬ p.Owns fd) :
    ProcessStep p { p with meeting := p.meeting.serve h e sock kind packet }
  | requestActivity (now : Int) (p : Process σ κ) (hruns : p.RequestRuns) :
    ProcessStep p (p.setActivity now)
  /-- The request thread finds the connection closed, sets the flag and ends. -/
  | lost (p : Process σ κ) (hruns : p.RequestRuns) :
    ProcessStep p { p with
      meeting := { p.meeting with client := { p.meeting.client with lost := true } }
      requestPc := .ended }
  /-- The host and the connection may change. -/
  | world (host : σ) (sock : Socket) (p : Process σ κ) (hstarted : p.pc ≠ .starting) :
    ProcessStep p { p with meeting := { p.meeting with client := { p.meeting.client with
      host := (host, p.meeting.client.host.2), sock := sock } } }

/-- A run of the process, in any interleaving. -/
abbrev ProcessRun : Process σ κ → Process σ κ → Prop := Relation.ReflTransGen (ProcessStep h k e i)

/-! ## What is sent, and what the exit status says -/

/-- What a call has put on the command socket: its packet, or less than that if it failed. -/
def CommandCall.Emits (e : Endian) (c : CommandCall) (bytes : List Byte) : Prop :=
  c.result = (c.command.packet e c.stack).length ∧ bytes = c.command.packet e c.stack ∨
    c.result = -1 ∧ bytes <+: c.command.packet e c.stack ∧ bytes ≠ c.command.packet e c.stack

/-- The command socket has the bytes of the calls, one call after the other, behind `before`. -/
def Process.Sent (e : Endian) (before : List Byte) (p : Process σ κ) : Prop :=
  ∃ pieces, List.Forall₂ (CommandCall.Emits e) p.calls pieces ∧
    p.command.sent = before ++ pieces.flatten

/-- The calls of command functions are those of the handshake, if the command needs the host, and then
`own`. -/
def Process.Called (i : Invocation) (p : Process σ κ) (own : List CommandCall) : Prop :=
  ∃ pings, p.calls = pings ++ own ∧ ∀ c ∈ pings, c.command = pingCommand ∧ i.needsHost = true

/-- The call of the command of the command line, with a result that has `P`; none if the command has
no function. -/
def Invocation.Calls (i : Invocation) (P : Int → Prop) (own : List CommandCall) : Prop :=
  match i.command with
  | none => own = []
  | some c => ∃ stack result, own = [⟨c, stack, result⟩] ∧ P result

/-- The handshake was answered, if the command needs the host. -/
def Process.Answered (i : Invocation) (p : Process σ κ) : Prop :=
  i.needsHost = true → PingAnswered p.meeting.history

/-- Why the main loop returned when `packets` had been scanned, with what it printed. -/
inductive LoopReason (i : Invocation) (lost : Bool) (packets : List (List Byte)) :
    Int → List String → Prop where
  /-- The command does not wait. -/
  | noWait (hwait : i.wait = 0) : LoopReason i lost packets EXIT_OK []
  /-- A line with the marker was received. -/
  | marker (pc : MainPc) (status : Int)
    (hstatus : firstStatus i.marker (countedLines pc packets) = some status) :
    LoopReason i lost packets (exitStatus status) (loopMessage pc (exitStatus status))
  /-- The connection was lost, and no line with the marker was received. -/
  | lost (hwait : i.wait ≠ 0) (hlost : lost = true)
    (hmarker : firstStatus i.marker (countedLines .grace packets) = none) :
    LoopReason i lost packets EXIT_CONNLOST ["ps2client: ps2link closed the connection.\n"]
  /-- The timeout passed. -/
  | idle (hwait : 0 < i.wait) (hmarker : i.marker = none) : LoopReason i lost packets EXIT_OK []
  /-- The timeout passed, and no line with the marker was received. -/
  | timeout (hwait : 0 < i.wait) (hmarker : i.marker ≠ none)
    (hnone : firstStatus i.marker (countedLines .idle packets) = none) :
    LoopReason i lost packets EXIT_TIMEOUT
      ["ps2client: no output for %d seconds and no marker; giving up.\n"]

/-- Why the process exits with a status. -/
inductive ExitReason (i : Invocation) (p : Process σ κ) : Int → Prop where
  /-- A socket could not be opened. Nothing was sent. -/
  | unconnected (status : Int) (message : String)
    (hstatus : status = EXIT_PORTBUSY ∨ status = EXIT_NOCONNECT) (hcalls : p.calls = [])
    (hmessages : p.messages = [message]) : ExitReason i p status
  /-- ps2link did not answer the handshake. Nothing was sent but its commands. -/
  | unanswered (hneeds : i.needsHost = true) (hcalls : p.Called i [])
    (hresult : ∃ result, p.meeting.pc = .done result ∧ result < 0)
    (hmessages : p.messages =
      ["Error: ps2link at %s accepted the connection but does not answer.\n"]) :
    ExitReason i p EXIT_NOCONNECT
  /-- The command function failed. -/
  | unsent (own : List CommandCall) (hcalls : p.Called i own) (hown : i.Calls (· < 0) own)
    (hcommand : i.command ≠ none) (hanswered : p.Answered i)
    (hmessages : p.messages = ["Error: Could not send the command.\n"]) : ExitReason i p EXIT_NOCONNECT
  /-- The command was sent, and the main loop returned. The console thread may have scanned more since
  then. -/
  | returned (status : Int) (own : List CommandCall) (packets : List (List Byte))
    (hcalls : p.Called i own) (hown : i.Calls (0 ≤ ·) own) (hanswered : p.Answered i)
    (hpackets : packets <+: p.packets)
    (hreason : LoopReason i p.meeting.client.lost packets status p.messages) : ExitReason i p status

end Main

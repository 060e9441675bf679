import Ps2Client.Ps2link.Handshake

/-!
# The pace of the handshake

The handshake with a clock that never goes back, and with a trace of what it reads, sends and
returns. The request thread and the world around take their steps in between.
-/

namespace Ps2link

open CMemory History

/-- What `ps2link_handshake` does, in order. -/
inductive HandshakeEvent where
  | started (now : Int)
  | sawAnswered (value : Bool)
  | readClock (now : Int)
  | sawLost (value : Bool)
  /-- It sends the command, because of the time it has read last. -/
  | sent (now : Int)
  | returned (result : Int)
  deriving DecidableEq, Repr

def HandshakeEvent.command : HandshakeEvent → Option Command
  | .sent _ => some pingCommand
  | _ => none

variable {σ : Type} (h : Host σ) (e : Endian) (timeoutMs : Int)

/-- The events of the next step of the handshake, at the time `now`. -/
def handshakeEvents (now : Int) (m : Meeting σ) : List HandshakeEvent :=
  match m.pc with
  | .entry => [.started now]
  | .test _ _ => [.sawAnswered m.client.pingAnswered]
  | .unanswered start _ =>
    if timeoutMs ≤ now - start then [.readClock now, .returned (-1)] else [.readClock now]
  | .early _ next now =>
    if m.client.lost then [.sawLost true, .returned (-1)]
    else if next ≤ now then [.sawLost false, .sent now] else [.sawLost false]
  | .answered start => [.readClock now, .returned (toInt32 (now - start))]
  | .done _ => []

structure Paced (σ : Type) where
  meeting : Meeting σ
  clock : Int
  trace : List HandshakeEvent

def Paced.initial (host : σ) (sock : Network.Socket) (clock : Int) : Paced σ :=
  ⟨.initial host sock, clock, []⟩

/-- The next step of the handshake. -/
def Paced.handshake (s : Paced σ) : Paced σ :=
  { s with
    meeting := handshakeStep timeoutMs s.clock s.meeting
    trace := s.trace ++ handshakeEvents timeoutMs s.clock s.meeting }

/-- A step of the clock, of the handshake, or of the request thread and the world around. -/
inductive PacedStep : Paced σ → Paced σ → Prop where
  | tick (now : Int) (s : Paced σ) (hnow : s.clock ≤ now) : PacedStep s { s with clock := now }
  | handshake (s : Paced σ) (hlive : s.meeting.client.crashed = false) :
    PacedStep s (s.handshake timeoutMs)
  | others (m : Meeting σ) (s : Paced σ) (hstep : HandshakeStep h e timeoutMs s.meeting m)
    (hpc : m.pc = s.meeting.pc) (hcommands : m.commands = s.meeting.commands) :
    PacedStep s { s with meeting := m }

/-- A run of the threads, in any interleaving, with any clock that never goes back. -/
abbrev PacedRun : Paced σ → Paced σ → Prop := Relation.ReflTransGen (PacedStep h e timeoutMs)

/-- The handshake returns the time since its start before that time exceeds an `int`. -/
def Paced.Prompt (s : Paced σ) : Prop :=
  ∀ start, s.meeting.pc = .answered start → s.clock - start < 2 ^ 31

/-- A run in which the handshake returns promptly. -/
abbrev PromptRun : Paced σ → Paced σ → Prop :=
  Relation.ReflTransGen fun s s' =>
    PacedStep h e timeoutMs s s' ∧ (∀ result, s'.meeting.pc = .done result → s.Prompt)

/-- The handshake gives up: at one test of the loop the flag was clear, and the time was over or the
connection lost. -/
def GivenUp (before : List HandshakeEvent) : Prop :=
  ∃ front start now, before.head? = some (.started start) ∧
    (before = front ++ [.sawAnswered false, .readClock now] ∧ timeoutMs ≤ now - start ∨
      before = front ++ [.sawAnswered false, .readClock now, .sawLost true])

/-- The handshake has been answered, `elapsed` milliseconds after its start. -/
def Answers (elapsed : Int) (before : List HandshakeEvent) : Prop :=
  ∃ front start now, before.head? = some (.started start) ∧
    before = front ++ [.sawAnswered true, .readClock now] ∧ elapsed = now - start

/-- What is to be said of an event with the events before it. -/
def HandshakeEvent.Paced (before : List HandshakeEvent) : HandshakeEvent → Prop
  | .sent now =>
    (∀ t, .sent t ∈ before → t + 1000 ≤ now) ∧
      (∃ start, before.head? = some (.started start) ∧ now - start < timeoutMs) ∧
      .sawAnswered true ∉ before ∧ .sawLost true ∉ before
  | .returned result =>
    result = -1 ∧ GivenUp timeoutMs before ∨ 0 ≤ result ∧ Answers result before
  | _ => True

/-- The handshake keeps its pace. The commands are those of the trace, and its result is there. -/
structure HandshakePaced (s : Paced σ) : Prop where
  events : Always (HandshakeEvent.Paced timeoutMs) s.trace
  commands : s.meeting.commands = s.trace.filterMap HandshakeEvent.command
  result : ∀ result, s.meeting.pc = .done result → .returned result ∈ s.trace

end Ps2link

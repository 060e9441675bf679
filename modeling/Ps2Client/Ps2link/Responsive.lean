import Ps2Client.History.Progress
import Ps2Client.Ps2link.Idle
import Ps2Client.Ps2link.Pacing

/-!
# How soon the main thread responds

The loops of `ps2link_mainloop` and `ps2link_handshake` poll what the other threads set. How many steps
of its own the main thread takes from then on until it returns, whatever the others do meanwhile.
-/

namespace Ps2link

open History

/-! ## The main loop -/

section Mainloop

variable (marker : Option (List CMemory.Byte)) (timeout : Int)

/-- A step of the main loop. -/
def Timed.MainStep (s s' : Timed) : Prop := s' = s.main marker timeout

/-- A step of the clock, or of one of the other threads. -/
def Timed.OtherStep (s s' : Timed) : Prop :=
  TimedStep marker timeout s s' ∧ s'.system.mainPc = s.system.mainPc

/-- Such a step that records no activity. -/
def Timed.QuietStep (s s' : Timed) : Prop :=
  s.OtherStep marker timeout s' ∧ s'.recorded = s.recorded

/-- How many steps are left at most, once the marker has been seen. -/
def MainPc.seenRank : MainPc → Nat
  | .done _ => 0
  | .top | .grace | .idle => 1
  | .entry | .checked .. => 2

/-- Once the connection is lost. The loop may have read the flag before it was set. -/
def MainPc.lostRank : MainPc → Nat
  | .done _ => 0
  | .grace | .idle => 1
  | .checked _ true => 2
  | .top => 3
  | .entry | .checked _ false => 4

/-- Once the timeout has passed. At the entry it is measured anew. -/
def MainPc.idleRank : MainPc → Nat
  | .done _ => 0
  | .grace | .idle => 1
  | .checked .. => 2
  | .top => 3
  | .entry => 4

end Mainloop

/-! ## The handshake -/

section Handshake

variable {σ : Type} (h : Host σ) (e : CMemory.Endian) (timeoutMs : Int)

/-- A step of the handshake. -/
def Paced.OwnStep (s s' : Paced σ) : Prop :=
  s.meeting.client.crashed = false ∧ s' = s.handshake timeoutMs

/-- A step of the clock, or of the request thread and the world around. It does not take back that
the connection is lost. -/
def Paced.OtherStep (s s' : Paced σ) : Prop :=
  PacedStep h e timeoutMs s s' ∧ s'.meeting.pc = s.meeting.pc ∧
    (s.meeting.client.lost = true → s'.meeting.client.lost = true)

/-- The start of the handshake, while it waits. -/
def HandshakePc.start : HandshakePc → Option Int
  | .test start _ | .unanswered start _ | .early start _ _ => some start
  | .entry | .answered _ | .done _ => none

/-- How many steps are left at most, once the handshake has been answered. -/
def HandshakePc.answeredRank : HandshakePc → Nat
  | .done _ => 0
  | .answered _ => 1
  | .test .. => 2
  | .early .. | .entry => 3
  | .unanswered .. => 4

/-- Once the connection is lost. -/
def HandshakePc.lostRank : HandshakePc → Nat
  | .done _ => 0
  | .answered _ | .early .. => 1
  | .unanswered .. => 2
  | .test .. => 3
  | .entry => 4

/-- Once the time is over. -/
def HandshakePc.lateRank : HandshakePc → Nat
  | .done _ => 0
  | .answered _ | .unanswered .. => 1
  | .test .. => 2
  | .early .. => 3
  | .entry => 4

end Handshake

end Ps2link

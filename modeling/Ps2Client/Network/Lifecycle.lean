import Mathlib.Data.Set.Insert
import Ps2Client.History.Contract
import Ps2Client.Network.Connect

/-!
# The life of a socket

Which sockets are open and which have a thread that was not cancelled, as the calls of the kernel have
it. The kernel never gives out a socket that is open. A program that keeps the contract uses only sockets
that are open, and closes one only when it has cancelled the thread that serves it. A thread may go on
for a while when it has been cancelled: nothing here waits for its end.
-/

namespace Network

open CMemory History

/-- The sockets that are open, and those for which a thread was created and not cancelled since. -/
structure Table where
  opened : Set Int
  uncancelled : Set Int

def Table.next (t : Table) (ev : NetEvent) : Table :=
  match ev.call with
  | .socket _ => if 0 ≤ ev.result then { t with opened := insert ev.result t.opened } else t
  | .close sock => { t with opened := t.opened \ {sock} }
  | .createThread sock => { t with uncancelled := insert sock t.uncancelled }
  | .cancelThread sock => { t with uncancelled := t.uncancelled \ {sock} }
  | .gethostbyname _ | .noDelay _ | .getFlags _ | .setFlags .. | .connect .. | .select .. | .soError _
  | .bind .. => t

/-- A new socket is not one that is open. -/
def Table.Assumes (t : Table) (ev : NetEvent) : Prop :=
  match ev.call with
  | .socket _ => 0 ≤ ev.result → ev.result ∉ t.opened
  | _ => True

def Table.Guarantees (t : Table) (ev : NetEvent) : Prop :=
  match ev.call with
  | .noDelay sock | .getFlags sock | .setFlags sock _ | .connect sock _ _ | .select sock _ _
  | .soError sock | .bind sock _ => sock ∈ t.opened
  | .createThread sock => sock ∈ t.opened ∧ sock ∉ t.uncancelled
  | .cancelThread sock => sock ∈ t.uncancelled
  | .close sock => sock ∈ t.opened ∧ sock ∉ t.uncancelled
  | .gethostbyname _ | .socket _ => True

def socketContract : Contract NetEvent Table :=
  ⟨⟨∅, ∅⟩, Table.next, Table.Assumes, Table.Guarantees⟩

/-- Only open sockets have a thread that was not cancelled. -/
def Table.Sane (t : Table) : Prop := t.uncancelled ⊆ t.opened

/-- `t`, and one more socket. -/
def Table.Plus (t : Table) (sock : Int) (t' : Table) : Prop :=
  sock ∉ t.opened ∧ t' = { t with opened := insert sock t.opened }

/-- The sockets of a variable: one, or none while it is negative. -/
def descriptor (sock : Int) : Set Int := {s | 0 ≤ s ∧ s = sock}

/-- After a function that opens a socket, or fails with a negative result. -/
def Table.Opens (t : Table) (result : Int) (t' : Table) : Prop :=
  if result < 0 then t' = t else t.Plus result t'

end Network

import Ps2Client.Ps2link.Framing

/-!
# The attributes of a file

`ps2link_request_readdir` and `ps2link_request_getstat` both convert a `struct stat` into mode, size
and times, each in its own copy of the code. The first converts it in local variables that are not
initialised, and also when `stat` failed.
-/

namespace Ps2link

open CMemory Network Utility

/-! ## The stack -/

/-- What the local variables hold when they are entered: the `struct stat`, and the arrays in their
order. -/
structure Stack where
  stat : Stat
  locals : List (List Byte)
  deriving DecidableEq, Repr

variable {σ : Type}

/-- A host and, apart from it, the stack. -/
def Host.stacked (h : Host σ) : Host (σ × Stack) where
  call c u := ((h.call c u.1).1, (h.call c u.1).2, u.2)
  timeMs u := ((h.timeMs u.1).1, (h.timeMs u.1).2, u.2)
  localtime := h.localtime
  uninit size u := (peek (u.2.locals.headD []) 0 size, u.1, { u.2 with locals := u.2.locals.tail })
  uninitStat u := (u.2.stat, u)

def Client.onStack (s : Client σ) (stack : Stack) : Client (σ × Stack) where
  host := (s.host, stack)
  calls := s.calls
  sock := s.sock
  pingFd := s.pingFd
  pingAnswered := s.pingAnswered
  dd := s.dd
  activity := s.activity
  lost := s.lost
  crashed := s.crashed

/-! ## What a response tells of a file -/

variable (h : Host σ) (e : Endian)

/-- The bytes that an operation sends, on a given stack. -/
def answerOn (stack : Stack) (op : Operation) (s : Client σ) : List Byte :=
  answer (s.onStack stack) (op.perform h.stacked e (s.onStack stack)).2

/-- The fields `mode`, `attr`, `size`, `ctime`, `atime`, `mtime` and `hisize` of a response, if they
were sent. -/
def attributes (bs : List Byte) : Option (List Byte) :=
  if 50 ≤ bs.length then some (peek bs 10 40) else none

/-- The fields `size` and `hisize` of a response give the size `n`. -/
def ReportsSize (bs : List Byte) (n : Nat) : Prop :=
  (net32 bs 18).toNat + 2 ^ 32 * (net32 bs 46).toNat = n

/-- The full name of an entry of the directory in slot `i`. -/
def fullName (s : Client σ) (i : Fin 10) (name : List Byte) : List Byte :=
  (s.dd i).pathname.getD [] ++ ascii '/' :: name

/-- A `readdir` that finds the entry `name` of the directory in slot `i`, and a `getstat` of its full
name on the host as it is then, send the same attributes, whatever is on the stack. -/
def DescribedAlike (dd : Word) (i : Fin 10) (dir : Nat) (name : List Byte) (s : Client σ) : Prop :=
  ∀ stack stack' : Stack, ∃ a, attributes (answerOn h e stack (.readdir dd) s) = some a ∧
    attributes (answerOn h e stack' (.getstat (fullName s i name)) (s.call h (.readdir dir)).2) =
      some a

/-- The response to an operation is about a file of which the host gives the statistics `st`. -/
def Operation.Describes (st : Stat) (s : Client σ) : Operation → Prop
  | .getstat path => (h.call (.stat path) s.host).1 = some st
  | .readdir dd => ∃ i dir name, openSlot s.dd dd = some (i, dir) ∧
      (h.call (.readdir dir) s.host).1 = some name ∧
      (h.call (.stat (fullName s i name)) (h.call (.readdir dir) s.host).2).1 = some st
  | _ => False

end Ps2link

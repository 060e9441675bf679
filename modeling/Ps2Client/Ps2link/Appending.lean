import Ps2Client.Ps2link.Fields
import Ps2Client.Ps2link.PosixHost

/-!
# Appending to a file

A file is opened, written to and closed by requests of the ps2. The ps2 learns the descriptor from
the response to its first request, and sends the next request when it likes.
-/

namespace Ps2link

open CMemory Network Utility Posix

/-- A request with its fields, followed by data. -/
def Fields.request (f : Fields) (data : List Byte) : Request := ⟨f.kind.request, f.payload, data⟩

variable {σ : Type} (h : Host σ) (e : Endian)

/-- The turn of the thread on a request, with anything in its buffer before. -/
def TurnOn (r : Request) (s s' : Client σ) : Prop :=
  ∃ a rest packet packet', arrivedBytes a = r.bytes ++ rest ∧
    requestTurn h e packet (s.arrive a) = .next packet' s'

/-- Writes of `chunks` to the descriptor `fd`, each of which the host accepts whole. -/
inductive Writes (fd : Word) : List (List Byte) → Client σ → Client σ → Prop where
  | nil (s : Client σ) : Writes fd [] s s
  | cons {data : List Byte} {chunks : List (List Byte)} {s s₁ s₂ : Client σ}
    (hturn : TurnOn h e ((Fields.write fd (.ofNat 32 data.length)).request data) s s₁)
    (haccepted : answerResult s s₁ = data.length) (hrest : Writes fd chunks s₁ s₂) :
    Writes fd (data :: chunks) s s₂

/-- A file is opened, `chunks` are written to it, and it is closed. -/
def WriteSession (flags : Word) (path : PathField) (chunks : List (List Byte)) (s s' : Client σ) :
    Prop :=
  ∃ s₁ s₂, TurnOn h e ((Fields.open flags path).request []) s s₁ ∧ 0 ≤ answerResult s s₁ ∧
    Writes h e (net32 (answer s s₁) 6) chunks s₁ s₂ ∧
    TurnOn h e ((Fields.close (net32 (answer s s₁) 6)).request []) s₂ s'

/-- The flags of a request to append: `OPEN_WRITE` and `OPEN_APPEND`, but not `OPEN_TRUNCATE`. -/
def AppendFlags (flags : Word) : Prop :=
  flags &&& 0x0002 ≠ 0 ∧ flags &&& 0x0100 ≠ 0 ∧ flags &&& 0x0400 = 0

/-- What the session appends to: the content of a file that is opened for reading too, and nothing
otherwise, because opening a file only for writing truncates it. -/
def keptContent (flags : Word) (c : List Byte) : List Byte :=
  if flags &&& 0x0003 = 0x0003 then c else []

end Ps2link

import Ps2Client.Ps2link.Framing

/-!
# The table of directory descriptors

Runs of `opendir`, `readdir` and `closedir` requests, with what their responses have told the ps2.
-/

namespace Ps2link

open CMemory Network Utility

variable {σ : Type} (h : Host σ) (e : Endian)

/-- What the ps2 knows of its requests: the result of each `opendir`, and what it has closed. -/
inductive DirEvent where
  | opendir (result : Int)
  | readdir
  | closedir (dd : Word)
  deriving DecidableEq, Repr

/-- A descriptor that was the result of an `opendir` and has not been closed since. -/
def HandedOut (i : Fin 10) (history : List DirEvent) : Prop :=
  ∃ before after, history = before ++ .opendir i.val :: after ∧
    ∀ dd, .closedir dd ∈ after → dd.toNat ≠ i.val

/-- The events of an operation that goes from `s` to `s'`. A client that has crashed does not answer. -/
def dirEvents (op : Operation) (s s' : Client σ) : List DirEvent :=
  match op with
  | .opendir _ => if s'.crashed then [] else [.opendir (answerResult s s')]
  | .closedir dd => [.closedir dd]
  | _ => [.readdir]

/-- The call of `opendir` that an operation makes, if it makes one, opens the directory. -/
def OpendirSucceeds (op : Operation) (s : Client σ) : Prop :=
  match op with
  | .opendir path =>
    let stats := h.call (.stat path) s.host
    stats.1.any (fun st => isDir st.mode) → freeSlot s.dd ≠ none →
      (h.call (.opendir path) (h.call (.malloc (path.length + 1)) stats.2).2).1 ≠ none
  | _ => True

/-- A run of directory requests from the empty table, in which every step meets `P`. -/
inductive DirRun (P : Operation → Client σ → Prop) : Client σ → List DirEvent → Prop where
  | start (s : Client σ) (hempty : ∀ i, s.dd i = ⟨none, none⟩) (hw : s.sock.Writable)
    (hlive : s.crashed = false) : DirRun P s []
  | step {s : Client σ} {history : List DirEvent} (hrun : DirRun P s history)
    (hlive : s.crashed = false) (k : Kind) (hk : k = .opendir ∨ k = .readdir ∨ k = .closedir)
    (packet : List Byte) (hpacket : net32 packet 0 = k.request)
    (hP : P (k.decode e packet) s) :
    DirRun P (dispatch h e packet s).2.2
      (history ++ dirEvents (k.decode e packet) s (dispatch h e packet s).2.2)

/-- The table agrees with what the ps2 knows: the two fields of a slot agree, a slot is in use exactly
when its number is handed out, and no number is handed out twice. -/
structure TableAgrees (s : Client σ) (history : List DirEvent) : Prop where
  fields : ∀ i, (s.dd i).dir ≠ none ↔ (s.dd i).pathname ≠ none
  live : ∀ i, (s.dd i).dir ≠ none ↔ HandedOut i history
  distinct : ∀ before (i : Int) after, history = before ++ .opendir i :: after → 0 ≤ i →
    ∃ j : Fin 10, i = j.val ∧ ¬ HandedOut j before

end Ps2link

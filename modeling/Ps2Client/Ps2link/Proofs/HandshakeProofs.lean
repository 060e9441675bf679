import Mathlib.Data.List.Induction
import Ps2Client.History.Proofs.PastProofs
import Ps2Client.Ps2link.Handshake
import Ps2Client.Ps2link.Proofs.FieldsProofs

/-!
# Proofs: the handshake

What each operation does to the descriptor and the flag of the handshake is said once
(`perform_ping`); the invariant of the two threads follows from that.
-/

namespace Ps2link

open CMemory Network Utility History

/-! ## Operations that are not part of the handshake -/

/-- A call that has nothing to do with the handshake or with directory streams, and closes nothing. -/
def HostEvent.Harmless (ev : HostEvent) : Prop :=
  match ev.1 with
  | .close _ | .opendir _ | .closedir _ => False
  | .open path _ _ => path ≠ PING_PATHNAME
  | _ => True

/-- A harmless call opens no file of the handshake. -/
theorem HostEvent.Harmless.not_ping {ev : HostEvent} (hev : ev.Harmless) (flags mode : Word) :
    ev.1 ≠ .open PING_PATHNAME flags mode := by
  intro heq
  unfold HostEvent.Harmless at hev
  rw [heq] at hev
  exact hev rfl

/-- From `s` to `s'` only harmless calls have been made, and nothing has changed of the handshake and
the directory streams. -/
structure Harmless {σ : Type} (s s' : Client (σ × List HostEvent)) : Prop where
  pingFd : s'.pingFd = s.pingFd
  pingAnswered : s'.pingAnswered = s.pingAnswered
  dirs : ∀ i, (s'.dd i).dir = (s.dd i).dir
  log : ∃ new, s'.host.2 = s.host.2 ++ new ∧ ∀ ev ∈ new, ev.Harmless

section Operations

variable {σ : Type} {h : Host σ} {e : Endian} {s s₁ s₂ : Client (σ × List HostEvent)}

theorem Harmless.refl (s : Client (σ × List HostEvent)) : Harmless s s :=
  ⟨rfl, rfl, fun _ => rfl, [], (List.append_nil _).symm, by simp⟩

theorem Harmless.trans (h₁ : Harmless s s₁) (h₂ : Harmless s₁ s₂) : Harmless s s₂ := by
  obtain ⟨new₁, hlog₁, hnew₁⟩ := h₁.log
  obtain ⟨new₂, hlog₂, hnew₂⟩ := h₂.log
  refine ⟨h₂.pingFd.trans h₁.pingFd, h₂.pingAnswered.trans h₁.pingAnswered,
    fun i => (h₂.dirs i).trans (h₁.dirs i), new₁ ++ new₂, ?_, ?_⟩
  · rw [hlog₂, hlog₁, List.append_assoc]
  · intro ev hev
    rcases List.mem_append.mp hev with hev | hev
    · exact hnew₁ ev hev
    · exact hnew₂ ev hev

/-- The connection and the other fields do not matter. -/
theorem Harmless.of_eq (h₁ : Harmless s s₁) (hpingFd : s₂.pingFd = s₁.pingFd)
    (hpingAnswered : s₂.pingAnswered = s₁.pingAnswered) (hdd : s₂.dd = s₁.dd)
    (hlog : s₂.host.2 = s₁.host.2) : Harmless s s₂ :=
  ⟨hpingFd.trans h₁.pingFd, hpingAnswered.trans h₁.pingAnswered, fun i => hdd ▸ h₁.dirs i,
    hlog ▸ h₁.log⟩

/-- A harmless call of the host is a harmless step. -/
theorem call_harmless (c : HostCall) (s : Client (σ × List HostEvent))
    (hc : ∀ result, HostEvent.Harmless ⟨c, result⟩) : Harmless s (s.call h.recording c).2 := by
  refine ⟨rfl, rfl, fun _ => rfl, [⟨c, (h.call c s.host.1).1⟩], rfl, ?_⟩
  intro ev hev
  rw [List.mem_singleton.mp hev]
  exact hc _

/-- Reading and sending what was read leaves the handshake alone. -/
theorem readAndSend_harmless (fd size : Word) (s : Client (σ × List HostEvent)) :
    Harmless s (readAndSend h.recording e fd size s).2 :=
  (call_harmless (.read fd.toInt size.toNat) s fun _ => trivial).of_eq rfl rfl rfl rfl

theorem performRead_harmless (fd size : Word) (s : Client (σ × List HostEvent)) :
    Harmless s (performRead h.recording e fd size s).2 := by
  have hmalloc := call_harmless (h := h) (.malloc size.toNat) s fun _ => trivial
  unfold performRead
  split
  · dsimp only
    split
    · exact hmalloc.of_eq rfl rfl rfl rfl
    · exact hmalloc.trans (readAndSend_harmless fd size _)
  · exact readAndSend_harmless fd size s

/-- Receiving data and writing it leaves the handshake alone. -/
theorem receiveAndWrite_harmless (buffer : List Byte) (fd size : Word)
    (s : Client (σ × List HostEvent)) :
    Harmless s (receiveAndWrite h.recording e buffer fd size s).2 := by
  unfold receiveAndWrite
  dsimp only
  split
  · exact (Harmless.refl s).of_eq rfl rfl rfl rfl
  · have hreceived : Harmless s (s.receiveAll size.toInt).2.2 := (Harmless.refl s).of_eq rfl rfl rfl rfl
    exact (hreceived.trans (call_harmless (.write fd.toInt _) _ fun _ => trivial)).of_eq rfl rfl rfl rfl

theorem performWrite_harmless (fd size : Word) (s : Client (σ × List HostEvent)) :
    Harmless s (performWrite h.recording e fd size s).2 := by
  have hmalloc := call_harmless (h := h) (.malloc size.toNat) s fun _ => trivial
  unfold performWrite
  split
  · dsimp only
    split
    · exact hmalloc
    · exact hmalloc.trans (receiveAndWrite_harmless _ fd size _)
  · have huninit : Harmless s (s.uninit h.recording 65536).2 := (Harmless.refl s).of_eq rfl rfl rfl rfl
    exact huninit.trans (receiveAndWrite_harmless _ fd size _)

/-- So does looking up a directory entry. -/
theorem readdirEntry_harmless (tname name : List Byte) (s : Client (σ × List HostEvent)) :
    Harmless s (readdirEntry h.recording e tname name s).2 := by
  have hstack : Harmless s (s.uninitStat h.recording).2 := (Harmless.refl s).of_eq rfl rfl rfl rfl
  have hstat := hstack.trans (call_harmless (h := h) (.stat tname) _ fun _ => trivial)
  unfold readdirEntry
  split
  · exact (Harmless.refl s).of_eq rfl rfl rfl rfl
  · dsimp only
    split
    · exact hstat.of_eq rfl rfl rfl rfl
    · exact hstat.of_eq rfl rfl rfl rfl

theorem performReaddir_harmless (dd : Word) (s : Client (σ × List HostEvent)) :
    Harmless s (performReaddir h.recording e dd s).2 := by
  unfold performReaddir
  split
  · exact (Harmless.refl s).of_eq rfl rfl rfl rfl
  · rename_i i dir hslot
    have hreaddir := call_harmless (h := h) (.readdir dir) s fun _ => trivial
    dsimp only
    split
    · exact hreaddir.of_eq rfl rfl rfl rfl
    · exact hreaddir.trans (readdirEntry_harmless _ _ _)

theorem performGetstat_harmless (path : List Byte) (s : Client (σ × List HostEvent)) :
    Harmless s (performGetstat h.recording e path s).2 := by
  have hstat := call_harmless (h := h) (.stat path) s fun _ => trivial
  unfold performGetstat
  dsimp only
  split
  · exact hstat.of_eq rfl rfl rfl rfl
  · split
    · exact hstat.of_eq rfl rfl rfl rfl
    · exact hstat.of_eq rfl rfl rfl rfl

/-- An `open` of any other file. -/
theorem performOpen_harmless {path : List Byte} (hpath : path ≠ PING_PATHNAME) (flags : Word)
    (s : Client (σ × List HostEvent)) : Harmless s (performOpen h.recording e path flags s).2 := by
  have hstat := call_harmless (h := h) (.stat path) s fun _ => trivial
  unfold performOpen
  rw [if_neg hpath]
  dsimp only
  split
  · exact (hstat.trans (call_harmless (.open path flags 0o644) _ fun _ => hpath)).of_eq rfl rfl rfl rfl
  · exact hstat.of_eq rfl rfl rfl rfl

/-! ## The handshake -/

/-- What an operation that goes from `s` to `s'` does to the descriptors of the handshake and of the
directory streams. -/
inductive PingEffect (op : Operation) (s s' : Client (σ × List HostEvent)) : Prop where
  | ping (fd : Int) (hop : op.IsPing) (hpingFd : s'.pingFd = fd)
    (hanswered : s'.pingAnswered = s.pingAnswered) (hdd : s'.dd = s.dd)
    (hlog : s'.host.2 = s.host.2 ++ [⟨.open NULL_DEVICE O_WRONLY 0, fd⟩])
    (hsent : answer s s' <+: be32 RESPONSE_OPEN ++ (be16 10 ++ be32 (.ofInt 32 fd)))
  | close (fd : Word) (result : Int) (hop : op = .close fd)
    (hping : (0 ≤ s.pingFd ∧ fd.toInt = s.pingFd) ∧ s'.pingFd = -1 ∧ s'.pingAnswered = true ∨
      ¬ (0 ≤ s.pingFd ∧ fd.toInt = s.pingFd) ∧ s'.pingFd = s.pingFd ∧
        s'.pingAnswered = s.pingAnswered) (hdd : s'.dd = s.dd)
    (hlog : s'.host.2 = s.host.2 ++ [⟨.close fd.toInt, result⟩])
  | opendir (i : Fin 10) (path : List Byte) (dir : Option Nat) (s₁ : Client (σ × List HostEvent))
    (hop : op = .opendir path) (hfirst : Harmless s s₁) (hpingFd : s'.pingFd = s₁.pingFd)
    (hanswered : s'.pingAnswered = s₁.pingAnswered)
    (hdirs : ∀ j, (s'.dd j).dir = if j = i then dir else (s₁.dd j).dir)
    (hlog : s'.host.2 = s₁.host.2 ++ [⟨.opendir path, dir⟩])
  | closedir (i : Fin 10) (dd : Word) (dir : Nat) (result : Int) (hop : op = .closedir dd)
    (hpingFd : s'.pingFd = s.pingFd) (hanswered : s'.pingAnswered = s.pingAnswered)
    (hslot : (s.dd i).dir = some dir)
    (hdirs : ∀ j, (s'.dd j).dir = if j = i then none else (s.dd j).dir)
    (hlog : s'.host.2 = s.host.2 ++ [⟨.closedir dir, result⟩])
  | none (hping : ¬ op.IsPing) (hclose : ∀ fd, op ≠ .close fd) (hharmless : Harmless s s')

/-- What the ps2 gets of a response that may be cut is a prefix of it. -/
theorem answer_isPrefix {bs : List Byte} (hemitted : Emitted s.sock s₁.sock bs) :
    answer s s₁ <+: bs := by
  obtain ⟨t, hsent, hpre, -⟩ := hemitted.sent
  rw [answer_eq hsent]
  exact hpre

/-- An `open` of the file of the handshake takes the descriptor of the null device. -/
theorem performOpen_ping (flags : Word) (s : Client (σ × List HostEvent)) :
    PingEffect (.open PING_PATHNAME flags) s
      (performOpen h.recording e PING_PATHNAME flags s).2 := by
  unfold performOpen
  rw [if_pos rfl]
  refine .ping (h.call (.open NULL_DEVICE O_WRONLY 0) s.host.1).1 ⟨flags, rfl⟩ rfl rfl rfl rfl ?_
  exact answer_isPrefix (responseResult_emitted e RESPONSE_OPEN _ { s with
    host := (h.recording.call (.open NULL_DEVICE O_WRONLY 0) s.host).2
    pingFd := (h.call (.open NULL_DEVICE O_WRONLY 0) s.host.1).1 })

/-- A `close` answers the ping exactly when it is for that descriptor. -/
theorem performClose_ping (fd : Word) (s : Client (σ × List HostEvent)) :
    PingEffect (.close fd) s (performClose h.recording e fd s).2 := by
  unfold performClose
  dsimp only
  refine .close fd (h.call (.close fd.toInt) s.host.1).1 rfl ?_ ?_ ?_
  · split
    · rename_i hheld
      exact Or.inl ⟨hheld, rfl, rfl⟩
    · rename_i hheld
      exact Or.inr ⟨hheld, rfl, rfl⟩
  · split <;> rfl
  · split <;> rfl

/-- The directory of an entry, when another one or itself is set. -/
theorem dir_update (table : Fin 10 → Slot) (i j : Fin 10) (slot : Slot) :
    (Function.update table i slot j).dir = if j = i then slot.dir else (table j).dir := by
  rw [Function.update_apply]
  split <;> rfl

/-- Filling an entry of the table leaves the handshake alone. -/
theorem opendirAt_ping (i : Fin 10) (path : List Byte) {s s₁ : Client (σ × List HostEvent)}
    (hfirst : Harmless s s₁) :
    PingEffect (.opendir path) s (opendirAt h.recording e i path s₁).2 := by
  have hmalloc := hfirst.trans (call_harmless (h := h) (.malloc (path.length + 1)) s₁ fun _ => trivial)
  unfold opendirAt
  dsimp only
  split
  · exact .none (by rintro ⟨flags, hop⟩; cases hop) nofun (hmalloc.of_eq rfl rfl rfl rfl)
  · refine .opendir i path _ _ rfl hmalloc rfl rfl (fun j => ?_) rfl
    refine (dir_update _ i j _).trans ?_
    by_cases hj : j = i
    · exact (if_pos hj).trans (if_pos hj).symm
    · refine (if_neg hj).trans (Eq.trans ?_ (if_neg hj).symm)
      exact (dir_update s₁.dd i j _).trans (if_neg hj)

theorem performOpendir_ping (path : List Byte) (s : Client (σ × List HostEvent)) :
    PingEffect (.opendir path) s (performOpendir h.recording e path s).2 := by
  have hstat := call_harmless (h := h) (.stat path) s fun _ => trivial
  have hnone : PingEffect (.opendir path) s
      (responseOpendir e (-1) (s.call h.recording (.stat path)).2).2 :=
    .none (by rintro ⟨flags, hop⟩; cases hop) nofun (hstat.of_eq rfl rfl rfl rfl)
  unfold performOpendir
  dsimp only
  split
  · split
    · exact opendirAt_ping _ path hstat
    · exact hnone
  · exact hnone

/-- An entry that `closedir` finds has a directory. -/
theorem openSlot_dir {table : Fin 10 → Slot} {dd : Word} {i : Fin 10} {dir : Nat}
    (hslot : openSlot table dd = some (i, dir)) : (table i).dir = some dir := by
  unfold openSlot at hslot
  split at hslot
  · obtain ⟨d, hd, heq⟩ := Option.map_eq_some_iff.mp hslot
    cases heq
    exact hd
  · cases hslot

theorem performClosedir_ping (dd : Word) (s : Client (σ × List HostEvent)) :
    PingEffect (.closedir dd) s (performClosedir h.recording e dd s).2 := by
  unfold performClosedir
  split
  · refine .none ?_ nofun ((Harmless.refl s).of_eq rfl rfl rfl rfl)
    rintro ⟨flags, hop⟩
    cases hop
  · rename_i i dir hslot
    exact .closedir i dd dir _ rfl rfl rfl (openSlot_dir hslot)
      (fun j => dir_update s.dd i j ⟨none, none⟩) rfl

/-- What every operation does to the handshake. -/
theorem perform_ping (op : Operation) (s : Client (σ × List HostEvent)) :
    PingEffect op s (op.perform h.recording e s).2 := by
  have hother : (∀ path flags, op ≠ .open path flags) → (∀ fd, op ≠ .close fd) →
      Harmless s (op.perform h.recording e s).2 → PingEffect op s (op.perform h.recording e s).2 := by
    intro hopen hclose hharmless
    refine .none ?_ hclose hharmless
    rintro ⟨flags, hop⟩
    exact hopen _ _ hop
  cases op with
  | «open» path flags =>
    by_cases hpath : path = PING_PATHNAME
    · subst hpath
      exact performOpen_ping flags s
    · refine .none ?_ (fun _ hop => by cases hop) (performOpen_harmless hpath flags s)
      rintro ⟨flags', hop⟩
      cases hop
      exact hpath rfl
  | close fd => exact performClose_ping fd s
  | read fd size => exact hother nofun nofun (performRead_harmless fd size s)
  | write fd size => exact hother nofun nofun (performWrite_harmless fd size s)
  | lseek fd offset whence =>
    exact hother nofun nofun ((call_harmless (.lseek ..) s fun _ => trivial).of_eq rfl rfl rfl rfl)
  | opendir path => exact performOpendir_ping path s
  | closedir dd => exact performClosedir_ping dd s
  | readdir dd => exact hother nofun nofun (performReaddir_harmless dd s)
  | remove path =>
    exact hother nofun nofun ((call_harmless (.remove path) s fun _ => trivial).of_eq rfl rfl rfl rfl)
  | mkdir path mode =>
    exact hother nofun nofun ((call_harmless (.mkdir ..) s fun _ => trivial).of_eq rfl rfl rfl rfl)
  | rmdir path =>
    exact hother nofun nofun ((call_harmless (.rmdir path) s fun _ => trivial).of_eq rfl rfl rfl rfl)
  | getstat path => exact hother nofun nofun (performGetstat_harmless path s)

end Operations

/-! ## One more request -/

/-- A descriptor is held by the handshake after one more request when this one opened it, or when it was
held before and the request neither opens it anew nor closes it. -/
theorem pingHeld_snoc (fd : Int) (history : List Served) (r : Served) :
    PingHeld fd (history ++ [r]) ↔
      r.Pings fd ∨ PingHeld fd history ∧ ¬ r.op.IsPing ∧ ¬ r.Closes fd := since_snoc ..

/-- The ping is answered after one more request when it was before, or when this one closes the
descriptor. -/
theorem pingAnswered_snoc (history : List Served) (r : Served) :
    PingAnswered (history ++ [r]) ↔
      PingAnswered history ∨ ∃ fd, 0 ≤ fd ∧ PingHeld fd history ∧ r.Closes fd := once_snoc ..

/-- A request opens at most one descriptor for the handshake. -/
theorem Served.Pings.unique {r : Served} {fd fd' : Int} (hr : r.Pings fd) (hr' : r.Pings fd') :
    fd = fd' := by
  have hlog := hr.2.1.symm.trans hr'.2.1
  exact eq_of_heq (Sigma.mk.inj (List.cons.inj hlog).1).2

/-- The `open` of the handshake closes nothing. -/
theorem Operation.IsPing.not_closes {r : Served} (hr : r.op.IsPing) (fd : Int) : ¬ r.Closes fd := by
  rintro ⟨w, hclose, -⟩
  obtain ⟨flags, hopen⟩ := hr
  rw [hopen] at hclose
  cases hclose

/-- What holds of the client after the requests in `history`. -/
structure PingInv {σ : Type} (s : Client (σ × List HostEvent)) (history : List Served) : Prop where
  pings : ∀ r ∈ history, r.op.IsPing → ∃ fd, r.Pings fd
  unopened : ∀ ev ∈ s.host.2, ∀ flags mode, ev.1 ≠ .open PING_PATHNAME flags mode
  held : ∀ fd, 0 ≤ fd → (s.pingFd = fd ↔ PingHeld fd history)
  answered : s.pingAnswered = true ↔ PingAnswered history

/-- The request that was served, as the history has it. -/
def served {σ : Type} (op : Operation) (s s' : Client (σ × List HostEvent)) : Served :=
  ⟨op, s'.host.2.drop s.host.2.length, answer s s'⟩

section Requests

variable {σ : Type} {s s' : Client (σ × List HostEvent)} {history : List Served} {op : Operation}

theorem pings_snoc {r : Served} (hpings : ∀ r ∈ history, r.op.IsPing → ∃ fd, r.Pings fd)
    (hr : r.op.IsPing → ∃ fd, r.Pings fd) :
    ∀ r' ∈ history ++ [r], r'.op.IsPing → ∃ fd, r'.Pings fd := by
  intro r' hr'
  rcases List.mem_append.mp hr' with hr' | hr'
  · exact hpings r' hr'
  · rw [List.mem_singleton.mp hr']
    exact hr

/-- Logs without an `open` of the handshake put together have none. -/
theorem unopened_append {log new : List HostEvent}
    (hlog : ∀ ev ∈ log, ∀ flags mode, ev.1 ≠ .open PING_PATHNAME flags mode)
    (hnew : ∀ ev ∈ new, ∀ flags mode, ev.1 ≠ .open PING_PATHNAME flags mode) :
    ∀ ev ∈ log ++ new, ∀ flags mode, ev.1 ≠ .open PING_PATHNAME flags mode := by
  intro ev hev
  rcases List.mem_append.mp hev with hev | hev
  · exact hlog ev hev
  · exact hnew ev hev

theorem unopened_snoc {log : List HostEvent} {ev : HostEvent}
    (hlog : ∀ ev ∈ log, ∀ flags mode, ev.1 ≠ .open PING_PATHNAME flags mode)
    (hev : ∀ flags mode, ev.1 ≠ .open PING_PATHNAME flags mode) :
    ∀ ev' ∈ log ++ [ev], ∀ flags mode, ev'.1 ≠ .open PING_PATHNAME flags mode := by
  refine unopened_append hlog ?_
  intro ev' hev'
  rw [List.mem_singleton.mp hev']
  exact hev

/-- The file of the handshake is opened: the descriptor is the new one. -/
theorem PingInv.ping (hinv : PingInv s history) {fd : Int} (hop : op.IsPing)
    (hpingFd : s'.pingFd = fd) (hanswered : s'.pingAnswered = s.pingAnswered)
    (hlog : s'.host.2 = s.host.2 ++ [⟨.open NULL_DEVICE O_WRONLY 0, fd⟩])
    (hsent : answer s s' <+: be32 RESPONSE_OPEN ++ (be16 10 ++ be32 (.ofInt 32 fd))) :
    PingInv s' (history ++ [served op s s']) := by
  have hpings : (served op s s').Pings fd := by
    refine ⟨hop, ?_, hsent⟩
    rw [served, hlog, List.drop_left]
  constructor
  · exact pings_snoc hinv.pings fun _ => ⟨fd, hpings⟩
  · rw [hlog]
    refine unopened_snoc hinv.unopened ?_
    intro flags mode heq
    injection heq with hpath
    exact absurd hpath (by decide)
  · intro fd' hfd'
    rw [pingHeld_snoc, hpingFd]
    constructor
    · rintro rfl
      exact Or.inl hpings
    · rintro (hpings' | ⟨-, hnot, -⟩)
      · exact hpings.unique hpings'
      · exact absurd hop hnot
  · rw [hanswered, hinv.answered, pingAnswered_snoc]
    refine ⟨Or.inl, ?_⟩
    rintro (hold | ⟨fd', -, -, hcloses⟩)
    · exact hold
    · exact absurd hcloses (Operation.IsPing.not_closes (r := served op s s') hop fd')

/-- A request that is not an `open` of the file of the handshake. -/
theorem pingHeld_other (hping : ¬ op.IsPing) (fd : Int) :
    PingHeld fd (history ++ [served op s s']) ↔
      PingHeld fd history ∧ ¬ (served op s s').Closes fd := by
  rw [pingHeld_snoc]
  constructor
  · rintro (hpings | ⟨hold, -, hcloses⟩)
    · exact absurd hpings.1 hping
    · exact ⟨hold, hcloses⟩
  · rintro ⟨hold, hcloses⟩
    exact Or.inr ⟨hold, hping, hcloses⟩

/-- A `close` closes the descriptor it names. -/
theorem served_closes {fd : Word} (hop : op = .close fd) (fd' : Int) :
    (served op s s').Closes fd' ↔ fd.toInt = fd' := by
  constructor
  · rintro ⟨w, hw, rfl⟩
    rw [show (served op s s').op = op from rfl, hop] at hw
    cases hw
    rfl
  · intro heq
    exact ⟨fd, hop, heq⟩

/-- A descriptor is closed: it is the answer if it is the one of the handshake. -/
theorem PingInv.close (hinv : PingInv s history) {fd : Word} {result : Int} (hop : op = .close fd)
    (hping : (0 ≤ s.pingFd ∧ fd.toInt = s.pingFd) ∧ s'.pingFd = -1 ∧ s'.pingAnswered = true ∨
      ¬ (0 ≤ s.pingFd ∧ fd.toInt = s.pingFd) ∧ s'.pingFd = s.pingFd ∧
        s'.pingAnswered = s.pingAnswered)
    (hlog : s'.host.2 = s.host.2 ++ [⟨.close fd.toInt, result⟩]) :
    PingInv s' (history ++ [served op s s']) := by
  have hnotPing : ¬ op.IsPing := by
    rintro ⟨flags, hopen⟩
    rw [hop] at hopen
    cases hopen
  have hcloses : ∀ fd', (served op s s').Closes fd' ↔ fd.toInt = fd' := served_closes hop
  have hheld : ∀ fd', PingHeld fd' (history ++ [served op s s']) ↔
      PingHeld fd' history ∧ fd.toInt ≠ fd' := by
    intro fd'
    rw [pingHeld_other hnotPing, hcloses]
  constructor
  · exact pings_snoc hinv.pings fun hp => absurd hp hnotPing
  · rw [hlog]
    refine unopened_snoc hinv.unopened ?_
    intro flags mode heq
    cases heq
  · intro fd' hfd'
    rw [hheld, ← hinv.held fd' hfd']
    rcases hping with ⟨⟨hfd, heq⟩, hpingFd, -⟩ | ⟨hne, hpingFd, -⟩
    · rw [hpingFd]
      refine iff_of_false (by omega) ?_
      rintro ⟨rfl, hne⟩
      exact hne heq
    · rw [hpingFd]
      refine ⟨?_, And.left⟩
      rintro rfl
      exact ⟨rfl, fun heq => hne ⟨hfd', heq⟩⟩
  · rw [pingAnswered_snoc]
    rcases hping with ⟨⟨hfd, heq⟩, -, hanswered⟩ | ⟨hne, -, hanswered⟩
    · refine iff_of_true hanswered (Or.inr ⟨s.pingFd, hfd, ?_, (hcloses _).mpr heq⟩)
      exact (hinv.held _ hfd).mp rfl
    · rw [hanswered, hinv.answered]
      refine ⟨Or.inl, ?_⟩
      rintro (hold | ⟨fd', hfd', hold, hclose⟩)
      · exact hold
      · have hpingFd := (hinv.held fd' hfd').mpr hold
        rw [hcloses] at hclose
        exact absurd ⟨hpingFd ▸ hfd', hclose.trans hpingFd.symm⟩ hne

/-- Any other request leaves the handshake as it is. -/
theorem PingInv.other (hinv : PingInv s history) (hping : ¬ op.IsPing)
    (hclose : ∀ fd, op ≠ .close fd) (hpingFd : s'.pingFd = s.pingFd)
    (hanswered : s'.pingAnswered = s.pingAnswered)
    (hlog : ∃ new, s'.host.2 = s.host.2 ++ new ∧
      ∀ ev ∈ new, ∀ flags mode, ev.1 ≠ .open PING_PATHNAME flags mode) :
    PingInv s' (history ++ [served op s s']) := by
  obtain ⟨new, hlog, hnew⟩ := hlog
  have hcloses : ∀ fd, ¬ (served op s s').Closes fd := by
    rintro fd ⟨w, hw, -⟩
    exact hclose w hw
  constructor
  · exact pings_snoc hinv.pings fun hp => absurd hp hping
  · rw [hlog]
    exact unopened_append hinv.unopened hnew
  · intro fd hfd
    rw [hpingFd, hinv.held fd hfd, pingHeld_other hping]
    exact ⟨fun hold => ⟨hold, hcloses fd⟩, And.left⟩
  · rw [hanswered, hinv.answered, pingAnswered_snoc]
    refine ⟨Or.inl, ?_⟩
    rintro (hold | ⟨fd, -, -, hfd⟩)
    · exact hold
    · exact absurd hfd (hcloses fd)

/-- A harmless operation opens no file of the handshake. -/
theorem Harmless.unopened (hharmless : Harmless s s') : ∃ new, s'.host.2 = s.host.2 ++ new ∧
    ∀ ev ∈ new, ∀ flags mode, ev.1 ≠ .open PING_PATHNAME flags mode := by
  obtain ⟨new, hlog, hnew⟩ := hharmless.log
  exact ⟨new, hlog, fun ev hev => (hnew ev hev).not_ping⟩

/-- The variables of the handshake follow the history of requests. -/
theorem PingEffect.inv (heffect : PingEffect op s s') (hinv : PingInv s history) :
    PingInv s' (history ++ [served op s s']) := by
  cases heffect with
  | ping fd hop hpingFd hanswered hdd hlog hsent => exact hinv.ping hop hpingFd hanswered hlog hsent
  | close fd result hop hping hdd hlog => exact hinv.close hop hping hlog
  | opendir i path dir s₁ hop hfirst hpingFd hanswered hdirs hlog =>
    obtain ⟨new, hnew, hunopened⟩ := hfirst.unopened
    refine hinv.other ?_ ?_ (hpingFd.trans hfirst.pingFd) (hanswered.trans hfirst.pingAnswered)
      ⟨new ++ [⟨.opendir path, dir⟩], ?_, unopened_snoc hunopened nofun⟩
    · rintro ⟨flags, hopen⟩
      rw [hop] at hopen
      cases hopen
    · rw [hop]
      exact nofun
    · rw [hlog, hnew, List.append_assoc]
  | closedir i dd dir result hop hpingFd hanswered hslot hdirs hlog =>
    refine hinv.other ?_ ?_ hpingFd hanswered
      ⟨[⟨.closedir dir, result⟩], hlog, unopened_snoc (List.forall_mem_nil _) nofun⟩
    · rintro ⟨flags, hopen⟩
      rw [hop] at hopen
      cases hopen
    · rw [hop]
      exact nofun
  | none hping hclose hharmless =>
    exact hinv.other hping hclose hharmless.pingFd hharmless.pingAnswered hharmless.unopened

/-- The flag is never cleared. -/
theorem PingEffect.answered (heffect : PingEffect op s s') (hs : s.pingAnswered = true) :
    s'.pingAnswered = true := by
  cases heffect with
  | ping fd hop hpingFd hanswered hdd hlog hsent => rw [hanswered, hs]
  | close fd result hop hping hdd hlog =>
    rcases hping with ⟨-, -, hanswered⟩ | ⟨-, -, hanswered⟩
    · exact hanswered
    · rw [hanswered, hs]
  | opendir i path dir s₁ hop hfirst hpingFd hanswered hdirs hlog =>
    rw [hanswered, hfirst.pingAnswered, hs]
  | closedir i dd dir result hop hpingFd hanswered hslot hdirs hlog => rw [hanswered, hs]
  | none hping hclose hharmless => rw [hharmless.pingAnswered, hs]

end Requests

/-! ## Runs -/

/-- The invariant of the two threads. -/
structure HandshakeInv {σ : Type} (m : Meeting σ) : Prop where
  ping : PingInv m.client m.history
  seen : ∀ start, m.pc = .answered start → m.client.pingAnswered = true
  returned : ∀ result, m.pc = .done result → 0 ≤ result → m.client.pingAnswered = true

section Runs

variable {σ : Type} {h : Host σ} {e : Endian} {timeoutMs : Int}

/-- Nothing was requested, and nothing is held. -/
theorem handshakeInv_initial (host : σ) (sock : Socket) :
    HandshakeInv (Meeting.initial host sock) where
  ping :=
    { pings := by simp [Meeting.initial]
      unopened := by simp [Meeting.initial, Client.initial]
      held := by
        intro fd hfd
        refine iff_of_false ?_ (since_nil _ _)
        intro heq
        have hminus : (-1 : Int) = fd := heq
        omega
      answered := iff_of_false Bool.false_ne_true (once_nil _) }
  seen start hpc := by cases hpc
  returned result hpc := by cases hpc

/-- The handshake only reads what the request thread writes. -/
theorem handshakeStep_client (timeoutMs now : Int) (m : Meeting σ) :
    (handshakeStep timeoutMs now m).client = m.client := by
  unfold handshakeStep
  cases hpc : m.pc with
  | entry => rfl
  | test start next => dsimp only; split <;> rfl
  | unanswered start next => dsimp only; split <;> rfl
  | early start next read =>
    dsimp only
    split
    · rfl
    · split <;> rfl
  | answered start => rfl
  | done result => rfl

/-- The handshake returns a round trip time only when it has seen the flag. -/
theorem handshakeStep_inv (now : Int) {m : Meeting σ} (hm : HandshakeInv m) :
    HandshakeInv (handshakeStep timeoutMs now m) := by
  have hfailed : ∀ result : Int, HandshakePc.done (-1) = .done result → 0 ≤ result →
      m.client.pingAnswered = true := by
    intro result hdone hresult
    cases hdone
    exact absurd hresult (by decide)
  unfold handshakeStep
  split
  · exact ⟨hm.ping, nofun, nofun⟩
  · split
    · rename_i hset
      exact ⟨hm.ping, fun _ _ => hset, nofun⟩
    · exact ⟨hm.ping, nofun, nofun⟩
  · split
    · exact ⟨hm.ping, nofun, hfailed⟩
    · exact ⟨hm.ping, nofun, nofun⟩
  · split
    · exact ⟨hm.ping, nofun, hfailed⟩
    · split
      · exact ⟨hm.ping, nofun, nofun⟩
      · exact ⟨hm.ping, nofun, nofun⟩
  · rename_i start hpc
    exact ⟨hm.ping, nofun, fun _ _ _ => hm.seen start hpc⟩
  · exact hm

/-- A request keeps the invariant, -/
theorem serve_inv (sock : Socket) {k : Kind} {packet : List Byte} (hk : net32 packet 0 = k.request)
    {m : Meeting σ} (hm : HandshakeInv m) : HandshakeInv (m.serve h e sock k packet) := by
  have heffect : PingEffect (k.decode e packet) { m.client with sock := sock }
      (dispatch h.recording e packet { m.client with sock := sock }).2.2 := by
    rw [dispatch_operation h.recording e _ hk]
    exact perform_ping _ _
  have hstart : PingInv { m.client with sock := sock } m.history :=
    ⟨hm.ping.pings, hm.ping.unopened, hm.ping.held, hm.ping.answered⟩
  constructor
  · exact heffect.inv hstart
  · intro start hpc
    exact heffect.answered (hm.seen start hpc)
  · intro result hpc hresult
    exact heffect.answered (hm.returned result hpc hresult)

/-- and so does every step, -/
theorem HandshakeStep.inv {m m' : Meeting σ} (hstep : HandshakeStep h e timeoutMs m m')
    (hm : HandshakeInv m) : HandshakeInv m' := by
  cases hstep with
  | handshake now m hlive => exact handshakeStep_inv now hm
  | serve sock k packet m hlive hk => exact serve_inv sock hk hm
  | between host sock activity lost m =>
    exact ⟨⟨hm.ping.pings, hm.ping.unopened, hm.ping.held, hm.ping.answered⟩,
      hm.seen, hm.returned⟩

/-- and every run. -/
theorem HandshakeRun.inv {m m' : Meeting σ} (hrun : HandshakeRun h e timeoutMs m m')
    (hm : HandshakeInv m) : HandshakeInv m' := by
  induction hrun with
  | refl => exact hm
  | tail _ hstep ih => exact hstep.inv ih

/-- A turn of the request thread that does not end the loop serves one packet. -/
theorem requestTurn_serves {ρ : Type} {h : Host ρ} {packet packet' : List Byte} {s s' : Client ρ}
    (hturn : requestTurn h e packet s = .next packet' s') :
    ∃ m sock, s' = setActivity h (dispatch h e m { s with sock := sock }).2.2 := by
  unfold requestTurn at hturn
  dsimp only at hturn
  split at hturn
  · cases hturn
  · unfold headerTurn at hturn
    dsimp only at hturn
    split at hturn
    · cases hturn
    · unfold bodyTurn at hturn
      dsimp only at hturn
      split at hturn
      · cases hturn
      · unfold serveTurn at hturn
        dsimp only at hturn
        split at hturn
        · cases hturn
        · cases hturn
          exact ⟨_, _, rfl⟩

/-- The steps cover the request thread: each of its turns is a request that is served, or nothing for
a packet of an unknown number. -/
theorem requestTurn_run {packet packet' : List Byte} {m : Meeting σ}
    {s' : Client (σ × List HostEvent)} (hlive : m.client.crashed = false)
    (hturn : requestTurn h.recording e packet m.client = .next packet' s') :
    ∃ m', HandshakeRun h e timeoutMs m m' ∧ m'.client = s' := by
  obtain ⟨p, sock, rfl⟩ := requestTurn_serves hturn
  cases hk : Kind.ofNumber (net32 p 0) with
  | none =>
    rw [dispatch_unknown h.recording e _ hk]
    exact ⟨_, .single (.between _ sock _ m.client.lost m), rfl⟩
  | some k =>
    have hserve : HandshakeStep h e timeoutMs m (m.serve h e sock k p) :=
      .serve sock k p m hlive (Kind.request_of_ofNumber hk)
    exact ⟨_, (Relation.ReflTransGen.single hserve).tail (.between _ _ _ _ _), rfl⟩

end Runs

/-- A host on which `open` gives the descriptor 3, and `close` takes it back. -/
def pingHost : Host Unit :=
  { failingHost with
    call := fun c u =>
      match c with
      | .open .. => ((3 : Int), u)
      | .close _ => ((0 : Int), u)
      | c => (c.failure, u) }

/-- The packet of a request in the buffer. -/
abbrev Fields.packet (f : Fields) : List Byte := inBuffer f.kind.request f.payload []

/-- What a request with these fields does to the client. -/
theorem serve_fields {σ : Type} (h : Host σ) (e : Endian) (sock : Socket) (f : Fields)
    (m : Meeting σ) :
    (m.serve h e sock f.kind f.packet).client =
      ((f.operation e).perform h.recording e { m.client with sock := sock }).2 := by
  have hdispatch := dispatch_operation h.recording e { m.client with sock := sock }
    (net32_inBuffer_number f.kind.request f.payload [])
  rw [decode_fields] at hdispatch
  exact congrArg Prod.snd hdispatch

/-- The `close` of the descriptor that is held answers the ping. -/
theorem performClose_answers {σ : Type} (h : Host σ) (e : Endian) {fd : Word} {s : Client σ}
    (hheld : 0 ≤ s.pingFd ∧ fd.toInt = s.pingFd) :
    (performClose h e fd s).2.pingAnswered = true ∧
      (performClose h e fd s).2.crashed = s.crashed := by
  unfold performClose
  dsimp only
  rw [if_pos hheld]
  exact ⟨rfl, rfl⟩

/-- The ps2 opens the file of the handshake. -/
def pingOpened (m : Meeting Unit) : Meeting Unit :=
  m.serve pingHost .little (.receiving []) .open (Fields.open 2 pathPing).packet

/-- The ps2 closes it. -/
def pingClosed (m : Meeting Unit) : Meeting Unit :=
  m.serve pingHost .little (.receiving []) .close (Fields.close 3).packet

theorem pingOpened_client (m : Meeting Unit) :
    (pingOpened m).client.pingFd = 3 ∧ (pingOpened m).client.crashed = m.client.crashed := by
  have hopen : (pingOpened m).client = (performOpen pingHost.recording .little PING_PATHNAME
      (fixFlags 2) { m.client with sock := .receiving [] }).2 := by
    rw [← hostPath_pathPing]
    exact serve_fields pingHost .little (.receiving []) (.open 2 pathPing) m
  rw [hopen]
  exact ⟨rfl, rfl⟩

theorem pingClosed_client (m : Meeting Unit) :
    (pingClosed (pingOpened m)).client.pingAnswered = true ∧
      (pingClosed (pingOpened m)).client.crashed = m.client.crashed := by
  obtain ⟨hpingFd, hlive⟩ := pingOpened_client m
  have hclose : (pingClosed (pingOpened m)).client = (performClose pingHost.recording .little 3
      { (pingOpened m).client with sock := .receiving [] }).2 :=
    serve_fields pingHost .little (.receiving []) (.close 3) (pingOpened m)
  have hheld : 0 ≤ (pingOpened m).client.pingFd ∧ (3 : Word).toInt = (pingOpened m).client.pingFd := by
    rw [hpingFd]
    decide
  obtain ⟨hset, hlive'⟩ := performClose_answers pingHost.recording .little
    (s := { (pingOpened m).client with sock := .receiving [] }) hheld
  rw [hclose]
  exact ⟨hset, hlive'.trans hlive⟩

theorem pingOpened_step (timeoutMs : Int) {m : Meeting Unit} (hlive : m.client.crashed = false) :
    HandshakeStep pingHost .little timeoutMs m (pingOpened m) :=
  .serve (.receiving []) .open _ m hlive (net32_inBuffer_number ..)

theorem pingClosed_step (timeoutMs : Int) {m : Meeting Unit} (hlive : m.client.crashed = false) :
    HandshakeStep pingHost .little timeoutMs (pingOpened m) (pingClosed (pingOpened m)) :=
  .serve (.receiving []) .close _ (pingOpened m) ((pingOpened_client m).2.trans hlive)
    (net32_inBuffer_number ..)

end Ps2link

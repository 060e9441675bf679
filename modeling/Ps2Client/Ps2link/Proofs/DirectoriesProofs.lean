import Ps2Client.History.Proofs.PastProofs
import Ps2Client.Ps2link.Directories
import Ps2Client.Ps2link.Proofs.FramingProofs

/-!
# Proofs: the table of directory descriptors
-/

namespace Ps2link

open CMemory Network Utility

variable {σ : Type} (h : Host σ) (e : Endian)

/-! ## Histories -/

theorem handedOut_iff_since (i : Fin 10) (history : List DirEvent) :
    HandedOut i history ↔ History.Since (· = .opendir i.val)
      (fun ev => ∀ dd, ev = .closedir dd → dd.toNat ≠ i.val) history := by
  constructor
  · rintro ⟨before, after, rfl, hafter⟩
    refine ⟨before, _, after, rfl, rfl, ?_⟩
    rintro ev hev dd rfl
    exact hafter dd hev
  · rintro ⟨before, ev, after, rfl, rfl, hafter⟩
    exact ⟨before, after, rfl, fun dd hdd => hafter _ hdd dd rfl⟩

theorem handedOut_snoc (i : Fin 10) (history : List DirEvent) (ev : DirEvent) :
    HandedOut i (history ++ [ev]) ↔ ev = .opendir i.val ∨
      HandedOut i history ∧ ∀ dd, ev = .closedir dd → dd.toNat ≠ i.val := by
  rw [handedOut_iff_since, handedOut_iff_since, History.since_snoc]

/-- One more event keeps the numbers distinct, if a number that it hands out was not in use. -/
theorem distinct_snoc {history : List DirEvent} {ev : DirEvent}
    (hdistinct : ∀ before (i : Int) after, history = before ++ .opendir i :: after → 0 ≤ i →
      ∃ j : Fin 10, i = j.val ∧ ¬ HandedOut j before)
    (hev : ∀ i : Int, ev = .opendir i → 0 ≤ i → ∃ j : Fin 10, i = j.val ∧ ¬ HandedOut j history) :
    ∀ before (i : Int) after, history ++ [ev] = before ++ .opendir i :: after → 0 ≤ i →
      ∃ j : Fin 10, i = j.val ∧ ¬ HandedOut j before := by
  intro before i after heq hi
  rcases History.snoc_eq_append_cons.mp heq with ⟨rfl, hlast, -⟩ | ⟨after', -, hhistory⟩
  · exact hev i hlast.symm hi
  · exact hdistinct before i after' hhistory hi

/-! ## Steps -/

theorem toInt32_slot (i : Fin 10) : toInt32 i.val = i.val := by
  revert i
  decide

theorem freeSlot_dir {dd : Fin 10 → Slot} {i : Fin 10} (hfree : freeSlot dd = some i) :
    (dd i).dir = none := by
  have := List.find?_some hfree
  exact beq_iff_eq.mp this

/-- The slot that a descriptor names. -/
theorem openSlot_eq_some {table : Fin 10 → Slot} {dd : Word} {i : Fin 10} {dir : Nat}
    (hslot : openSlot table dd = some (i, dir)) : dd.toNat = i.val ∧ (table i).dir = some dir := by
  unfold openSlot at hslot
  split at hslot
  · obtain ⟨d, hd, heq⟩ := Option.map_eq_some_iff.mp hslot
    cases heq
    exact ⟨rfl, hd⟩
  · cases hslot

theorem openSlot_eq_none {table : Fin 10 → Slot} {dd : Word} (hslot : openSlot table dd = none)
    {i : Fin 10} (hi : dd.toNat = i.val) : (table i).dir = none := by
  have hlt : dd.toNat < 10 := hi ▸ i.isLt
  have hfin : (⟨dd.toNat, hlt⟩ : Fin 10) = i := Fin.ext hi
  rw [openSlot, dif_pos hlt, Option.map_eq_none_iff, hfin] at hslot
  exact hslot

/-- What `opendir` can do: refuse, crash, or take the first free slot. -/
theorem performOpendir_cases (path : List Byte) {s : Client σ} (hw : s.sock.Writable)
    (hlive : s.crashed = false) :
    let s' := (performOpendir h e path s).2
    s'.sock.Writable ∧
      (s'.dd = s.dd ∧ s'.crashed = false ∧ answerResult s s' = -1 ∨
      s'.dd = s.dd ∧ s'.crashed = true ∨
      ∃ i, freeSlot s.dd = some i ∧ s'.crashed = false ∧ answerResult s s' = i ∧
        s'.dd = Function.update s.dd i ⟨some path,
          (h.call (.opendir path) (h.call (.malloc (path.length + 1))
            (h.call (.stat path) s.host).2).2).1⟩ ∧
        (h.call (.stat path) s.host).1.any (fun st => isDir st.mode)) := by
  unfold performOpendir
  dsimp only
  split
  · rename_i hdir
    split
    · rename_i i hfree
      unfold opendirAt
      dsimp only
      split
      · exact ⟨hw, .inr (.inl ⟨rfl, rfl⟩)⟩
      · refine ⟨send_writable _ _ _ hw, .inr (.inr ⟨i, hfree, hlive, ?_, ?_, hdir⟩)⟩
        · exact (answerResult_responseResult e _ _ _ _ rfl hw).trans (toInt32_slot i)
        · show Function.update (Function.update _ _ _) _ _ = _
          rw [Function.update_idem, Function.update_self]
    · exact ⟨send_writable _ _ _ hw, .inl ⟨rfl, hlive, answerResult_responseResult e _ _ _ _ rfl hw⟩⟩
  · exact ⟨send_writable _ _ _ hw, .inl ⟨rfl, hlive, answerResult_responseResult e _ _ _ _ rfl hw⟩⟩

/-- The slots after `closedir`: the one it names is free, and the others are as before. -/
theorem performClosedir_cases (dd : Word) {s : Client σ} (hw : s.sock.Writable)
    (hlive : s.crashed = false)
    (hfields : ∀ i, (s.dd i).dir ≠ none ↔ (s.dd i).pathname ≠ none) :
    let s' := (performClosedir h e dd s).2
    s'.sock.Writable ∧ s'.crashed = false ∧
      ∀ i, s'.dd i = if dd.toNat = i.val then ⟨none, none⟩ else s.dd i := by
  unfold performClosedir
  cases hslot : openSlot s.dd dd with
  | none =>
    refine ⟨send_writable _ _ _ hw, hlive, fun i => ?_⟩
    show s.dd i = _
    split
    · rename_i hi
      have hdir := openSlot_eq_none hslot hi
      have hpath : (s.dd i).pathname = none := by
        by_contra hne
        exact (hfields i).mpr hne hdir
      cases hs : s.dd i
      rw [hs] at hdir hpath
      simp only at hdir hpath
      rw [hdir, hpath]
    · rfl
  | some slot =>
    obtain ⟨j, dir⟩ := slot
    obtain ⟨hj, -⟩ := openSlot_eq_some hslot
    refine ⟨send_writable _ _ _ hw, hlive, fun i => ?_⟩
    show Function.update s.dd j ⟨none, none⟩ i = _
    by_cases hij : i = j
    · rw [hij, Function.update_self, if_pos hj]
    · rw [Function.update_of_ne hij, if_neg (fun hi => hij (Fin.ext (hi.symm.trans hj)))]

theorem performReaddir_dd (dd : Word) {s : Client σ} (hw : s.sock.Writable) :
    (performReaddir h e dd s).2.dd = s.dd ∧ (performReaddir h e dd s).2.sock.Writable := by
  unfold performReaddir
  split
  · exact ⟨rfl, send_writable _ _ _ hw⟩
  · dsimp only
    split
    · exact ⟨rfl, send_writable _ _ _ hw⟩
    · unfold readdirEntry
      split
      · exact ⟨rfl, hw⟩
      · dsimp only
        split
        · exact ⟨rfl, send_writable _ _ _ hw⟩
        · exact ⟨rfl, hw⟩

/-! ## Runs -/

theorem tableAgrees_start {s : Client σ} (hempty : ∀ i, s.dd i = ⟨none, none⟩) :
    TableAgrees s [] where
  fields i := by simp [hempty i]
  live i := by
    rw [hempty i]
    refine ⟨fun hne => absurd rfl hne, ?_⟩
    rintro ⟨before, after, heq, -⟩
    simp at heq
  distinct before i after heq := by simp at heq

/-- A step that leaves the table as it is and hands out no number. -/
theorem TableAgrees.same {s s' : Client σ} {history : List DirEvent} {ev : DirEvent}
    (hagrees : TableAgrees s history) (hdd : s'.dd = s.dd)
    (hopen : ∀ i : Int, ev = .opendir i → i < 0) (hclose : ∀ dd, ev ≠ .closedir dd) :
    TableAgrees s' (history ++ [ev]) where
  fields i := by
    rw [hdd]
    exact hagrees.fields i
  live i := by
    rw [hdd, hagrees.live i, handedOut_snoc]
    constructor
    · exact fun hout => .inr ⟨hout, fun dd hev => absurd hev (hclose dd)⟩
    · rintro (hev | ⟨hout, -⟩)
      · have := hopen _ hev
        omega
      · exact hout
  distinct := distinct_snoc hagrees.distinct fun i hev hi => by
    have := hopen i hev
    omega

theorem opendir_tableAgrees {s s' : Client σ} {history : List DirEvent} {path : List Byte}
    (hs' : s' = (performOpendir h e path s).2) (hw : s.sock.Writable) (hlive : s.crashed = false)
    (hP : OpendirSucceeds h (.opendir path) s) (hagrees : TableAgrees s history) :
    s'.sock.Writable ∧ TableAgrees s' (history ++ dirEvents (.opendir path) s s') := by
  have hcases := performOpendir_cases h e path hw hlive
  dsimp only at hcases
  rw [← hs'] at hcases
  obtain ⟨hw', ⟨hdd, hlive', hres⟩ | ⟨hdd, hcrash⟩ | ⟨i, hfree, hlive', hres, hdd, hdir⟩⟩ := hcases
  · refine ⟨hw', ?_⟩
    rw [dirEvents, hlive', hres]
    refine hagrees.same hdd (fun i hev => ?_) (fun dd => nofun)
    cases hev
    decide
  · refine ⟨hw', ?_⟩
    rw [dirEvents, hcrash, if_pos rfl, List.append_nil]
    exact ⟨hdd ▸ hagrees.fields, hdd ▸ hagrees.live, hagrees.distinct⟩
  · refine ⟨hw', ?_⟩
    have hopened := hP hdir (by rw [hfree]; exact Option.some_ne_none i)
    have hfresh : ¬ HandedOut i history := by
      rw [← hagrees.live i]
      exact not_not.mpr (freeSlot_dir hfree)
    rw [dirEvents, hlive', hres, if_neg Bool.false_ne_true]
    refine ⟨fun j => ?_, fun j => ?_, distinct_snoc hagrees.distinct fun j hev hj => ?_⟩
    · rw [hdd]
      by_cases hij : j = i
      · rw [hij, Function.update_self]
        exact ⟨fun _ => Option.some_ne_none path, fun _ => hopened⟩
      · rw [Function.update_of_ne hij]
        exact hagrees.fields j
    · rw [hdd, handedOut_snoc]
      by_cases hij : j = i
      · rw [hij, Function.update_self]
        exact ⟨fun _ => .inl rfl, fun _ => hopened⟩
      · rw [Function.update_of_ne hij, hagrees.live j]
        refine ⟨fun hout => .inr ⟨hout, fun dd => nofun⟩, ?_⟩
        rintro (hev | ⟨hout, -⟩)
        · injection hev with hev
          exact absurd (Fin.ext (by omega)) hij
        · exact hout
    · cases hev
      exact ⟨i, rfl, hfresh⟩

theorem closedir_tableAgrees {s s' : Client σ} {history : List DirEvent} {dd : Word}
    (hs' : s' = (performClosedir h e dd s).2) (hw : s.sock.Writable) (hlive : s.crashed = false)
    (hagrees : TableAgrees s history) :
    s'.sock.Writable ∧ TableAgrees s' (history ++ dirEvents (.closedir dd) s s') := by
  have hcases := performClosedir_cases h e dd hw hlive hagrees.fields
  dsimp only at hcases
  rw [← hs'] at hcases
  obtain ⟨hw', -, hdd⟩ := hcases
  refine ⟨hw', fun i => ?_, fun i => ?_, distinct_snoc hagrees.distinct fun i hev => by cases hev⟩
  · rw [hdd i]
    split
    · simp
    · exact hagrees.fields i
  · rw [hdd i, dirEvents, handedOut_snoc]
    split
    · rename_i hi
      refine ⟨fun hne => absurd rfl hne, ?_⟩
      rintro (hev | ⟨-, hclose⟩)
      · cases hev
      · exact absurd hi (hclose dd rfl)
    · rename_i hi
      rw [hagrees.live i]
      constructor
      · refine fun hout => .inr ⟨hout, fun dd' hev => ?_⟩
        cases hev
        exact hi
      · rintro (hev | ⟨hout, -⟩)
        · cases hev
        · exact hout

theorem readdir_tableAgrees {s s' : Client σ} {history : List DirEvent} {dd : Word}
    (hs' : s' = (performReaddir h e dd s).2) (hw : s.sock.Writable)
    (hagrees : TableAgrees s history) :
    s'.sock.Writable ∧ TableAgrees s' (history ++ dirEvents (.readdir dd) s s') := by
  obtain ⟨hdd, hw'⟩ := performReaddir_dd h e dd hw
  rw [← hs'] at hdd hw'
  refine ⟨hw', hagrees.same hdd (fun i hev => ?_) (fun dd => nofun)⟩
  cases hev

/-- One step of a run on a table that agrees with what the ps2 knows. -/
theorem tableAgrees_step {s s' : Client σ} {history : List DirEvent} {op : Operation}
    (hs' : s' = (op.perform h e s).2)
    (hk : op.kind = .opendir ∨ op.kind = .readdir ∨ op.kind = .closedir)
    (hw : s.sock.Writable) (hlive : s.crashed = false) (hP : OpendirSucceeds h op s)
    (hagrees : TableAgrees s history) :
    s'.sock.Writable ∧ TableAgrees s' (history ++ dirEvents op s s') := by
  cases op with
  | opendir path => exact opendir_tableAgrees h e hs' hw hlive hP hagrees
  | readdir dd => exact readdir_tableAgrees h e hs' hw hagrees
  | closedir dd => exact closedir_tableAgrees h e hs' hw hlive hagrees
  | _ => simp [Operation.kind] at hk

theorem DirRun.agrees {s : Client σ} {history : List DirEvent}
    (hrun : DirRun h e (OpendirSucceeds h) s history) :
    s.sock.Writable ∧ TableAgrees s history := by
  induction hrun with
  | start s hempty hw hlive => exact ⟨hw, tableAgrees_start hempty⟩
  | step hrun hlive k hk packet hpacket hP ih =>
    obtain ⟨hw, hagrees⟩ := ih
    refine tableAgrees_step h e ?_ ?_ hw hlive hP hagrees
    · rw [dispatch_operation h e _ hpacket]
    · rcases hk with rfl | rfl | rfl <;> simp [Kind.decode, Operation.kind]

/-- In every run in which each `opendir` of the host opens the directory, the table agrees with what
the ps2 knows of it. -/
theorem directory_table {s : Client σ} {history : List DirEvent}
    (hrun : DirRun h e (OpendirSucceeds h) s history) : TableAgrees s history :=
  (DirRun.agrees h e hrun).2

/-- A host on which every path is a directory, which may be opened or not. -/
def directoryHost (dir : Option Nat) : Host Unit where
  call c u := (match c with
    | .stat _ => some ⟨0x41ED, 0, 0, 0, 0⟩
    | .malloc size => some (List.replicate size 0)
    | .opendir _ => dir
    | c => c.failure, u)
  timeMs u := (0, u)
  localtime _ := none
  uninit size u := (List.replicate size 0, u)
  uninitStat u := (⟨0, 0, 0, 0, 0⟩, u)

/-- A request to open the directory `a`. -/
def opendirPacket : List Byte := be32 REQUEST_OPENDIR ++ (be16 12 ++ (be32 0 ++ [ascii 'a', 0]))

theorem net32_opendirPacket : net32 opendirPacket 0 = Kind.opendir.request :=
  @net32_be32 [] _ 0 REQUEST_OPENDIR rfl

/-- The run of one request to open a directory. -/
theorem dirRun_opendir (dir : Option Nat) {P : Operation → Client Unit → Prop}
    (hP : P (Kind.opendir.decode .big opendirPacket) (.initial () (.receiving []))) :
    let s : Client Unit := .initial () (.receiving [])
    let s' := (dispatch (directoryHost dir) .big opendirPacket s).2.2
    DirRun (directoryHost dir) .big P s'
      ([] ++ dirEvents (Kind.opendir.decode .big opendirPacket) s s') :=
  .step (.start (.initial () (.receiving [])) (fun _ => rfl) List.not_mem_nil rfl) rfl .opendir
    (.inl rfl) _ net32_opendirPacket hP

/-- A request to close the directory 0. -/
def closedirPacket : List Byte := be32 REQUEST_CLOSEDIR ++ (be16 10 ++ be32 0)

theorem net32_closedirPacket : net32 closedirPacket 0 = Kind.closedir.request :=
  @net32_be32 [] _ 0 REQUEST_CLOSEDIR rfl

theorem freeSlot_zero {dd : Fin 10 → Slot} (hdir : (dd 0).dir = none) : freeSlot dd = some 0 := by
  rw [freeSlot, List.finRange_succ, List.find?_cons_of_pos (by simpa using hdir)]

/-- Where directories can be opened. -/
abbrev OpenedRun : Client Unit → List DirEvent → Prop :=
  DirRun (directoryHost (some 0)) .big (OpendirSucceeds (directoryHost (some 0)))

/-- The first slot is taken when it is free. -/
theorem OpenedRun.opendir {s : Client Unit} {history : List DirEvent} (hrun : OpenedRun s history)
    (hlive : s.crashed = false) (hdir : (s.dd 0).dir = none) :
    ∃ s', OpenedRun s' (history ++ [.opendir 0]) ∧ s'.crashed = false := by
  have hdecode : Kind.opendir.decode .big opendirPacket = .opendir [ascii 'a'] := by decide
  have hstep : OpenedRun _ _ := DirRun.step hrun hlive .opendir (.inl rfl) _ net32_opendirPacket
    fun _ _ => Option.some_ne_none 0
  rw [dispatch_operation _ _ _ net32_opendirPacket, hdecode] at hstep
  have hw := (DirRun.agrees _ _ hrun).1
  have hperform : performOpendir (directoryHost (some 0)) .big [ascii 'a'] s =
      opendirAt (directoryHost (some 0)) .big 0 [ascii 'a']
        (s.call (directoryHost (some 0)) (.stat [ascii 'a'])).2 := by
    unfold performOpendir
    refine (if_pos rfl).trans ?_
    rw [freeSlot_zero hdir]
  have hlive' : (performOpendir (directoryHost (some 0)) .big [ascii 'a'] s).2.crashed = false := by
    rw [hperform]
    exact hlive
  have hanswer : answerResult s (performOpendir (directoryHost (some 0)) .big [ascii 'a'] s).2 = 0 := by
    rw [hperform]
    exact (answerResult_responseResult .big _ _ _ _ rfl hw).trans (toInt32_slot 0)
  have hevents : dirEvents (.opendir [ascii 'a']) s
      (performOpendir (directoryHost (some 0)) .big [ascii 'a'] s).2 = [.opendir 0] := by
    rw [dirEvents, hlive', hanswer]
    rfl
  exact ⟨_, hevents ▸ hstep, hlive'⟩

theorem OpenedRun.closedir {s : Client Unit} {history : List DirEvent} (hrun : OpenedRun s history)
    (hlive : s.crashed = false) :
    ∃ s', OpenedRun s' (history ++ [.closedir 0]) ∧ s'.crashed = false ∧ (s'.dd 0).dir = none := by
  have hdecode : Kind.closedir.decode .big closedirPacket = .closedir 0 := by decide
  have hstep : OpenedRun _ _ := DirRun.step hrun hlive .closedir (.inr (.inr rfl)) _
    net32_closedirPacket trivial
  rw [dispatch_operation _ _ _ net32_closedirPacket, hdecode] at hstep
  obtain ⟨hw, hagrees⟩ := DirRun.agrees _ _ hrun
  obtain ⟨-, hlive', hdd⟩ :=
    performClosedir_cases (directoryHost (some 0)) .big 0 hw hlive hagrees.fields
  refine ⟨_, hstep, hlive', ?_⟩
  rw [show (Operation.perform (directoryHost (some 0)) .big (.closedir 0) s).2.dd 0 = _ from hdd 0]
  rfl

/-- A directory is opened and closed, and one is opened again in the same slot. -/
theorem directory_table_reopened : ∃ s : Client Unit,
    OpenedRun s [.opendir 0, .closedir 0, .opendir 0] ∧
      TableAgrees s [.opendir 0, .closedir 0, .opendir 0] := by
  have hstart : OpenedRun (.initial () (.receiving [])) [] :=
    .start (.initial () (.receiving [])) (fun _ => rfl) List.not_mem_nil rfl
  obtain ⟨s₁, hopened, hlive₁⟩ := hstart.opendir rfl rfl
  obtain ⟨s₂, hclosed, hlive₂, hfree⟩ := OpenedRun.closedir hopened hlive₁
  obtain ⟨s₃, hreopened, -⟩ := OpenedRun.opendir hclosed hlive₂ hfree
  exact ⟨s₃, hreopened, directory_table _ _ hreopened⟩

/-- When the host cannot open the directory, the slot has a path and no directory. -/
theorem not_directory_table : ¬ ∀ (s : Client Unit) (history : List DirEvent),
    DirRun (directoryHost none) .big (fun _ _ => True) s history → TableAgrees s history := by
  intro hall
  have hagrees := hall _ _ (dirRun_opendir none trivial)
  have hfields := hagrees.fields 0
  rw [dispatch_operation _ _ _ net32_opendirPacket] at hfields
  exact hfields.mpr (Option.some_ne_none _) rfl

end Ps2link

import Ps2Client.Fsclient.Proofs.ServingProofs
import Ps2Client.Ps2link.Proofs.PosixHostProofs
import Ps2Client.Ps2netfs.Proofs.CommandsProofs

/-!
# Proofs: what a copy leaves behind
-/

namespace Fsclient

open CMemory History Network Posix Ps2netfs
open Ps2link (Host HostCall fileHost)

variable {μ : Type} {E : Ends μ}

/-- The descriptors that are open at the label `done`. -/
def Locals.opened (l : Locals) : List Descriptor :=
  (if 0 ≤ l.fd0 then [.source l.fd0] else []) ++
    (if 0 ≤ l.fd1 then [.destination l.fd1] else [])

/-! ## Before the label -/

theorem closed_of_transfer {s : Step} (h : s.isRead = true ∨ s.isWrite = true) :
    s.closed = none ∧ s.opened = none := by
  cases s <;> simp_all [Step.isRead, Step.isWrite, Step.closed, Step.opened]

/-- The steps up to the loop open the two files, and the loop opens and closes none. -/
theorem Moved.opened {ok : Bool} {bytes : Nat} {ls : List Step} (hmoved : Moved ok bytes ls)
    {fd0 fd1 : Int} (size position : Int) (h0 : 0 ≤ fd0) (h1 : 0 ≤ fd1) :
    let steps := [.openSource fd0, .seekEnd size, .seekSet position, .openDestination fd1] ++ ls
    (∀ s ∈ steps, s.closed = none) ∧ steps.filterMap Step.opened =
      Locals.opened { fd0 := fd0, fd1 := fd1 } := by
  intro steps
  constructor
  · intro s hs
    rcases List.mem_append.mp hs with hs | hs
    · simp only [List.mem_cons, List.not_mem_nil, or_false] at hs
      rcases hs with rfl | rfl | rfl | rfl <;> rfl
    · exact (closed_of_transfer (hmoved.kinds s hs)).1
  · have hnone : ls.filterMap Step.opened = [] :=
      List.filterMap_eq_nil_iff.mpr fun s hs => (closed_of_transfer (hmoved.kinds s hs)).2
    rw [List.filterMap_append, hnone]
    simp [List.filterMap_cons, Step.opened, Locals.opened, h0, h1]

/-- What the steps before the label opened is what is open there, and the status tells whether one of
them failed, except for a source whose length is misjudged. -/
theorem copyBody_steps (hE : E.Sound) (source destination : CStr) (w : μ) :
    let f := E.openSource w
    let n := E.seekEnd f.1 f.2
    let b := copyBody E source destination ⟨w, [], []⟩
    (∀ s ∈ b.2.steps, s.closed = none) ∧ b.2.steps.filterMap Step.opened = b.1.opened ∧
      (b.1.status = 0 ∧ Straight Step.Failed true b.2.steps ∧ ¬ (0 ≤ f.1 ∧ toInt32 n.1 < 0) ∨
        b.1.status = -1 ∧ Straight Step.Failed false b.2.steps ∧
          ¬ (0 ≤ f.1 ∧ 0 ≤ n.1 ∧ toInt32 n.1 < 0) ∨
        0 ≤ f.1 ∧ 0 ≤ n.1 ∧ toInt32 n.1 < 0 ∧ b.1 = { fd0 := f.1 } ∧
          Straight Step.Failed true b.2.steps ∧ b.2.world = n.2) := by
  have hcases := copyBody_cases (E := E) source destination w
  have hseek := hE.seekEnd (E.openSource w).1 (E.openSource w).2
  dsimp only at hcases ⊢
  set f := E.openSource w
  set n := E.seekEnd f.1 f.2
  set z := E.seekSet f.1 n.2
  set g := E.openDestination z.2
  set b := copyBody E source destination ⟨w, [], []⟩
  rcases hcases with ⟨hopen, hl, hsteps⟩ | ⟨hopen, hsize, hl, hsteps, hworld⟩ |
    ⟨hopen, hsize, hset, hl, hsteps⟩ | ⟨hopen, hsize, hset, hdest, hl, hsteps⟩ |
    ⟨hopen, hsize, hset, hdest, l, hloop, hl, hb⟩
  · rw [hl, hsteps]
    refine ⟨by simp [Step.closed], ?_, Or.inr (Or.inl ⟨rfl, straight_bad hopen, by omega⟩)⟩
    simp [Step.opened, Locals.opened, Int.not_le.mpr hopen]
  all_goals
    have hfirst : Straight Step.Failed true [.openSource f.1] := straight_good (Int.not_lt.mpr hopen)
  · rw [hl, hsteps]
    refine ⟨by simp [Step.closed], by simp [Step.opened, Locals.opened, hopen], Or.inr ?_⟩
    by_cases hn : n.1 < 0
    · exact Or.inl ⟨rfl, hfirst.append (straight_bad hn), by omega⟩
    · right
      exact ⟨hopen, by omega, hsize, rfl, hfirst.append (straight_good hn), hworld⟩
  all_goals
    have hn : ¬ n.1 < 0 := fun hn => Int.not_lt.mpr hsize (hseek hn)
    have hsecond := hfirst.append (straight_good (x := Step.seekEnd n.1) hn)
  · rw [hl, hsteps]
    refine ⟨by simp [Step.closed], by simp [Step.opened, Locals.opened, hopen], Or.inr (Or.inl ?_)⟩
    exact ⟨rfl, hsecond.append (straight_bad hset), by omega⟩
  all_goals
    have hthird := hsecond.append (straight_good (x := Step.seekSet z.1) (Int.not_lt.mpr hset))
  · rw [hl, hsteps]
    refine ⟨by simp [Step.closed], ?_, Or.inr (Or.inl ⟨rfl, ?_, by omega⟩)⟩
    · simp [Step.opened, Locals.opened, hopen, Int.not_le.mpr hdest]
    · exact hthird.append (straight_bad hdest)
  · obtain ⟨ls, hsteps, hmoved, -⟩ := copyLoop_steps hE f.1 g.1 (toInt32 n.1) 0
      ⟨g.2, [.openSource f.1, .seekEnd n.1, .seekSet z.1, .openDestination g.1],
        [⟨"\n [%s --> %s]\n\n  Progress: ", [.string source, .string destination]⟩]⟩
    rw [← hloop] at hsteps hmoved
    obtain ⟨hclosed, hopened⟩ := hmoved.opened n.1 z.1 hopen hdest
    have hfourth :=
      hthird.append (straight_good (x := Step.openDestination g.1) (Int.not_lt.mpr hdest))
    have hall := hfourth.append hmoved.straight
    rw [hb, hl, hsteps]
    refine ⟨hclosed, hopened, ?_⟩
    cases hok : l.1 with
    | true =>
      rw [hok] at hall
      exact Or.inl ⟨rfl, hall, by omega⟩
    | false =>
      rw [hok] at hall
      exact Or.inr (Or.inl ⟨rfl, hall, by omega⟩)

/-! ## After the label -/

/-- Steps that close the descriptors `ds`, and the status after them. -/
structure Closes (before after : Int) (ds : List Descriptor) (steps : List Step) : Prop where
  closed : ∀ s ∈ steps, s.closed ≠ none
  descriptors : steps.filterMap Step.closed = ds
  status : after = before ∧ (∀ s ∈ steps, ¬ s.Failed) ∨ after = -1 ∧ ∃ s ∈ steps, s.Failed

theorem Closes.append {a b c : Int} {ds es : List Descriptor} {xs ys : List Step}
    (hxs : Closes a b ds xs) (hys : Closes b c es ys) : Closes a c (ds ++ es) (xs ++ ys) where
  closed := by
    intro s hs
    rcases List.mem_append.mp hs with hs | hs
    · exact hxs.closed s hs
    · exact hys.closed s hs
  descriptors := by rw [List.filterMap_append, hxs.descriptors, hys.descriptors]
  status := by
    rcases hys.status with ⟨rfl, hgood⟩ | ⟨rfl, s, hs, hbad⟩
    · rcases hxs.status with ⟨rfl, hgood'⟩ | ⟨rfl, s, hs, hbad⟩
      · refine Or.inl ⟨rfl, fun s hs => ?_⟩
        rcases List.mem_append.mp hs with hs | hs
        · exact hgood' s hs
        · exact hgood s hs
      · exact Or.inr ⟨rfl, s, List.mem_append_left _ hs, hbad⟩
    · exact Or.inr ⟨rfl, s, List.mem_append_right _ hs, hbad⟩

theorem closeEnd_steps (fd : Int) (step : Int → Step) {d : Descriptor}
    (hclosed : ∀ r, (step r).closed = some d) (hfailed : ∀ r, (step r).Failed ↔ r < 0)
    (op : μ → Int × μ) (s : Int × Run μ) :
    ∃ closing, (closeEnd fd op step s).2.steps = s.2.steps ++ closing ∧
      Closes s.1 (closeEnd fd op step s).1 (if 0 ≤ fd then [d] else []) closing := by
  unfold closeEnd
  by_cases hfd : 0 ≤ fd
  · rw [if_pos hfd, if_pos hfd]
    refine ⟨[step (op s.2.world).1], rfl, by simp [hclosed], by simp [hclosed], ?_⟩
    by_cases hneg : (op s.2.world).1 < 0
    · right
      refine ⟨if_pos hneg, _, List.mem_singleton_self _, (hfailed _).mpr hneg⟩
    · left
      refine ⟨if_neg hneg, ?_⟩
      simpa [hfailed] using hneg
  · rw [if_neg hfd, if_neg hfd]
    exact ⟨[], by simp, by simp, rfl, Or.inl ⟨rfl, by simp⟩⟩

theorem copyDone_steps (l : Locals) (r : Run μ) :
    ∃ closing, (copyDone E l r).2.steps = r.steps ++ closing ∧
      Closes l.status (copyDone E l r).1 l.opened closing := by
  obtain ⟨xs, hxs, hfirst⟩ := closeEnd_steps l.fd0 (.closeSource l.fd0) (fun _ => rfl)
    (fun _ => Iff.rfl) (E.closeSource l.fd0) (l.status, r)
  set s := closeEnd l.fd0 (E.closeSource l.fd0) (.closeSource l.fd0) (l.status, r)
  obtain ⟨ys, hys, hsecond⟩ := closeEnd_steps l.fd1 (.closeDestination l.fd1) (fun _ => rfl)
    (fun _ => Iff.rfl) (E.closeDestination l.fd1) s
  refine ⟨xs ++ ys, ?_, hfirst.append hsecond⟩
  have hsteps : (copyDone E l r).2.steps = s.2.steps ++ ys := by
    unfold copyDone
    dsimp only
    split_ifs <;> exact hys
  rw [hsteps, hxs, List.append_assoc]

/-- Only the source is open. -/
theorem copyDone_source {fd : Int} (hfd : 0 ≤ fd) (r : Run μ) :
    (copyDone E { fd0 := fd } r).2.steps =
        r.steps ++ [.closeSource fd (E.closeSource fd r.world).1] ∧
      (copyDone E { fd0 := fd } r).1 = -1 := by
  by_cases hneg : (E.closeSource fd r.world).1 < 0
  · simp [copyDone, closeEnd, hfd, Run.take, hneg]
  · simp [copyDone, closeEnd, hfd, Run.take, hneg]

/-! ## The whole copy -/

/-- What the steps before and after the label make of the whole. -/
theorem tidy_of_parts {status final : Int} {ok : Bool} {ds : List Descriptor}
    {body closing : List Step} (hbody : ∀ s ∈ body, s.closed = none)
    (hopened : body.filterMap Step.opened = ds) (hclosing : Closes status final ds closing)
    (hstraight : Straight Step.Failed ok body)
    (hstatus : (status = 0 ∧ ok = true) ∨ (status = -1 ∧ ok = false) ∨
      (status = -1 ∧ ∃ s ∈ closing, s.Failed)) : Tidy final (body ++ closing) where
  closes := ⟨body, closing, rfl, hbody, hclosing.closed, hclosing.descriptors.trans hopened.symm⟩
  stops := by
    intro before s after heq hbad t ht
    rcases List.append_eq_append_iff.mp heq with ⟨cs, hbefore, hafter⟩ | ⟨cs, hb, hafter⟩
    · have hmem : t ∈ closing := by
        rw [hafter]
        exact List.mem_append_right _ (List.mem_cons_of_mem _ ht)
      exact hclosing.closed t hmem
    · cases cs with
      | nil =>
        rw [List.nil_append] at hafter
        apply hclosing.closed
        rw [← hafter]
        exact List.mem_cons_of_mem _ ht
      | cons c cs =>
        rw [List.cons_append, List.cons.injEq] at hafter
        obtain ⟨rfl, rfl⟩ := hafter
        rw [hb] at hstraight
        rw [hstraight.last hbad, List.nil_append] at ht
        exact hclosing.closed t ht
  status := by
    rcases hclosing.status with ⟨hfinal, hgood⟩ | ⟨hfinal, s, hs, hbad⟩
    · rcases hstatus with ⟨hzero, rfl⟩ | ⟨hneg, rfl⟩ | ⟨-, s, hs, hbad⟩
      · refine Or.inl ⟨hfinal.trans hzero, fun s hs => ?_⟩
        rcases List.mem_append.mp hs with hs | hs
        · exact hstraight s hs
        · exact hgood s hs
      · obtain ⟨s, hs, hbad⟩ := hstraight.failed
        exact Or.inr ⟨hfinal.trans hneg, s, List.mem_append_left _ hs, hbad⟩
      · exact absurd hbad (hgood s hs)
    · exact Or.inr ⟨hfinal, s, List.mem_append_right _ hs, hbad⟩

theorem copy_tidy_iff (hE : E.Sound) (source destination : CStr) (w : μ) :
    Tidy (copy E source destination w).1 (copy E source destination w).2.steps ↔
      ¬ E.Misjudges w := by
  obtain ⟨hbody, hopened, hstatus⟩ := copyBody_steps hE source destination w
  set b := copyBody E source destination ⟨w, [], []⟩
  obtain ⟨closing, hsteps, hclosing⟩ := copyDone_steps (E := E) b.1 b.2
  unfold copy
  dsimp only
  rw [hsteps]
  unfold Ends.Misjudges
  dsimp only
  rcases hstatus with ⟨hzero, hstraight, hnot⟩ | ⟨hneg, hstraight, hnot⟩ |
    ⟨hopen, hn, hsize, hl, hstraight, hworld⟩
  · have htidy := tidy_of_parts hbody hopened hclosing hstraight (Or.inl ⟨hzero, rfl⟩)
    exact iff_of_true htidy fun h => hnot ⟨h.1, h.2.2.1⟩
  · have htidy := tidy_of_parts hbody hopened hclosing hstraight (Or.inr (Or.inl ⟨hneg, rfl⟩))
    exact iff_of_true htidy fun h => hnot ⟨h.1, h.2.1, h.2.2.1⟩
  · have hdone := copyDone_source (E := E) hopen b.2
    rw [← hl, hsteps, hworld] at hdone
    obtain ⟨hclose, hfinal⟩ := hdone
    have hclose := List.append_cancel_left hclose
    have hstatus : b.1.status = -1 := by rw [hl]
    constructor
    · intro htidy hmis
      rcases htidy.status with ⟨hzero, -⟩ | ⟨-, s, hs, hbad⟩
      · rw [hfinal] at hzero
        cases hzero
      · rcases List.mem_append.mp hs with hs | hs
        · exact hstraight s hs hbad
        · rw [hclose, List.mem_singleton] at hs
          rw [hs] at hbad
          exact Int.not_lt.mpr hmis.2.2.2 hbad
    · intro hmis
      refine tidy_of_parts hbody hopened hclosing hstraight (Or.inr (Or.inr ⟨hstatus, ?_⟩))
      refine ⟨_, by rw [hclose]; exact List.mem_singleton_self _, ?_⟩
      by_contra hgood
      exact hmis ⟨hopen, hn, hsize, Int.not_lt.mp hgood⟩

/-! ## The two functions -/

section Hosts

variable {σ : Type} (e : Endian) {h : Host σ} (source destination : CStr)

/-- The length that the server answers is an `int` already. -/
theorem copyfromEnds_seekEnd (fd : Int) (w : World σ) :
    toInt32 ((copyfromEnds e h source destination).seekEnd fd w).1 =
      ((copyfromEnds e h source destination).seekEnd fd w).1 := call_int e _ _ _

theorem copyfromEnds_sound (hh : Bounded h) : (copyfromEnds e h source destination).Sound where
  seekEnd := by
    intro fd w hneg
    rwa [copyfromEnds_seekEnd]
  read := by
    intro fd count w _ _
    refine ⟨call_int e _ _ _, nofun, fun hpos => ?_⟩
    exact ((call_read_stored e _ _ _ _).2 hpos).1
  write := by
    intro fd data w hlen
    obtain ⟨n, hn, hlow, hhigh⟩ := hh.write fd data w.host
    have hresult : ((copyfromEnds e h source destination).write fd data w).1 = n := hn
    rw [hresult]
    exact ⟨toInt32_of_fits (by omega) (by omega), fun _ => hhigh⟩

theorem hostRead_cases (hh : Bounded h) (fd count : Int) (w : World σ) :
    (hostRead h fd count w = (-1, [], ⟨(h.call (.read fd count.toNat) w.host).2, w.sock⟩) ∧
        (h.call (.read fd count.toNat) w.host).1 = none) ∨
      ∃ data : List Byte, data.length ≤ count.toNat ∧
        hostRead h fd count w =
          ((data.length : Int), data, ⟨(h.call (.read fd count.toNat) w.host).2, w.sock⟩) := by
  unfold hostRead hostCall
  dsimp only
  split
  · rename_i hnone
    exact Or.inl ⟨rfl, hnone⟩
  · rename_i data hdata
    exact Or.inr ⟨data, hh.read fd count.toNat w.host data hdata, rfl⟩

theorem copytoEnds_sound (hh : Bounded h) : (copytoEnds e h source destination).Sound where
  seekEnd := by
    intro fd w hneg
    obtain ⟨n, hn, hlow⟩ := hh.lseek fd 0 2 w.host
    have hresult : ((copytoEnds e h source destination).seekEnd fd w).1 = n := hn
    rw [hresult] at hneg ⊢
    rw [toInt32_of_fits (by omega) (by omega)]
    exact hneg
  read := by
    intro fd count w hlow hmax
    obtain ⟨heq, -⟩ | ⟨data, hlen, heq⟩ := hostRead_cases hh fd count w
    · have hresult : (copytoEnds e h source destination).read fd count w = _ := heq
      rw [hresult]
      exact ⟨rfl, fun _ => by dsimp only; omega, nofun⟩
    · have hresult : (copytoEnds e h source destination).read fd count w = _ := heq
      rw [hresult]
      exact ⟨toInt32_of_fits (by omega) (by dsimp only; omega), fun _ => by dsimp only; omega,
        fun _ => rfl⟩
  write := by
    intro fd data w hlen
    exact ⟨call_int e _ _ _, nofun⟩

theorem fileHost_bounded : Bounded fileHost where
  read := by
    intro fd size fs data hdata
    cases hf : fs.opened fd with
    | none =>
      simp only [fileHost, hf] at hdata
      cases hdata
    | some f =>
      simp only [fileHost, hf] at hdata
      split_ifs at hdata
      · rw [read_eq hf] at hdata
        obtain rfl := Option.some.inj hdata
        exact List.length_take_le ..
  write := by
    intro fd data fs
    cases hf : fs.opened fd with
    | none => exact ⟨-1, by simp only [fileHost, hf]; rfl, by omega, by omega⟩
    | some f =>
      exact ⟨data.length, congrArg Prod.fst (Ps2link.fileHost_write data hf), by omega, by omega⟩
  lseek := by
    intro fd offset whence fs
    refine ⟨(fs.lseek fd offset whence).1, rfl, ?_⟩
    unfold Files.lseek
    split
    · exact Int.le_refl _
    · split
      · exact Int.le_refl _
      · split_ifs <;> dsimp only <;> omega

/-- `fsclient_copyfrom` always cleans up after itself, and so does `fsclient_copyto`, but it reports a
failure that did not happen when the length of its source is a negative `int`. -/
theorem copies_tidy_iff (hh : Bounded h) (source' destination' : CStr) (w w' : World σ) :
    Tidy (copyfrom e h source destination w).1 (copyfrom e h source destination w).2.steps ∧
      (Tidy (copyto e h source' destination' w').1 (copyto e h source' destination' w').2.steps ↔
        ¬ TooLong h source' w') := by
  constructor
  · apply (copy_tidy_iff (copyfromEnds_sound e source destination hh) source destination w).mpr
    intro ⟨_, hn, hsize, _⟩
    rw [copyfromEnds_seekEnd] at hsize
    exact Int.not_lt.mpr hn hsize
  · exact copy_tidy_iff (copytoEnds_sound e source' destination' hh) source' destination' w'

/-- A file of one byte, from the server and to it. -/
theorem copies_tidy_iff_byte :
    let r := (copyfrom .little fileHost pathX pathX downloadWorld).2
    let r' := (copyto .little fileHost pathX pathX uploadWorld).2
    (copyfrom .little fileHost pathX pathX downloadWorld).1 = 0 ∧ r.steps.length = 8 ∧
      ¬ TooLong fileHost pathX uploadWorld ∧
      Tidy (copyfrom .little fileHost pathX pathX downloadWorld).1 r.steps ∧
        (Tidy (copyto .little fileHost pathX pathX uploadWorld).1 r'.steps ↔
          ¬ TooLong fileHost pathX uploadWorld) := by
  intro r r'
  obtain ⟨hstatus, hsteps, -⟩ := copyfrom_byte
  refine ⟨hstatus, congrArg List.length hsteps, ?_,
    copies_tidy_iff .little pathX pathX fileHost_bounded pathX pathX downloadWorld uploadWorld⟩
  intro ⟨_, _, hsize, _⟩
  exact absurd hsize (by decide)

/-- A host with a source of 2^31 bytes: the copy opens it, asks for its length and closes it, and
returns -1. -/
theorem copyto_too_long :
    let r := copyto .little (lengthHost (2 ^ 31)) ⟨literal "a", by decide⟩ ⟨literal "b", by decide⟩
      ⟨(), Socket.receiving []⟩
    r.1 = -1 ∧ r.2.steps = [.openSource 3, .seekEnd (2 ^ 31), .closeSource 3 0] ∧
      ¬ Tidy r.1 r.2.steps := by
  intro r
  have hstatus : r.1 = -1 := rfl
  have hsteps : r.2.steps = [.openSource 3, .seekEnd (2 ^ 31), .closeSource 3 0] := rfl
  refine ⟨hstatus, hsteps, ?_⟩
  rw [hstatus, hsteps]
  intro htidy
  rcases htidy.status with ⟨hzero, -⟩ | ⟨-, s, hs, hbad⟩
  · cases hzero
  · simp only [List.mem_cons, List.not_mem_nil, or_false] at hs
    rcases hs with rfl | rfl | rfl <;> simp [Step.Failed] at hbad

end Hosts

end Fsclient

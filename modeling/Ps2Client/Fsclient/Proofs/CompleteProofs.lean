import Mathlib.Data.List.Induction
import Ps2Client.Fsclient.Proofs.TidyProofs
import Ps2Client.Ps2link.Proofs.PosixHostProofs
import Ps2Client.Ps2netfs.Proofs.SessionProofs

/-!
# Proofs: what a copy copies
-/

namespace Fsclient

open CMemory History Network Utility Ps2netfs Posix
open Ps2link (Host HostCall PosixHost HostFiles fileHost fileHost_posix)

variable {μ : Type} {E : Ends μ}

/-! ## A copy that succeeds -/

@[simp] theorem seekLength_open (fd : Int) (steps : List Step) :
    seekLength (.openSource fd :: steps) = seekLength steps := rfl

@[simp] theorem seekLength_seek (result : Int) (steps : List Step) :
    seekLength (.seekEnd result :: steps) = result := rfl

theorem copyDone_status {l : Locals} {r : Run μ} (hstatus : (copyDone E l r).1 = 0) :
    l.status = 0 := by
  obtain ⟨closing, -, hclosing⟩ := copyDone_steps (E := E) l r
  rcases hclosing.status with ⟨hfinal, -⟩ | ⟨hfinal, -⟩
  · rw [← hfinal, hstatus]
  · rw [hstatus] at hfinal
    cases hfinal

/-- Both files are open. -/
theorem copyDone_both (l : Locals) (r : Run μ) (h0 : 0 ≤ l.fd0) (h1 : 0 ≤ l.fd1)
    (hstatus : (copyDone E l r).1 = 0) :
    let c := E.closeSource l.fd0 r.world
    let d := E.closeDestination l.fd1 c.2
    (copyDone E l r).2.steps =
        r.steps ++ [.closeSource l.fd0 c.1, .closeDestination l.fd1 d.1] ∧
      (copyDone E l r).2.world = d.2 ∧
      (copyDone E l r).2.out = r.out ++ [⟨"\n\n [%d Bytes Copied]\n\n", [.int l.total]⟩] := by
  intro c d
  have hfirst : closeEnd l.fd0 (E.closeSource l.fd0) (.closeSource l.fd0) (l.status, r) =
      (if c.1 < 0 then -1 else l.status, ⟨c.2, r.steps ++ [.closeSource l.fd0 c.1], r.out⟩) :=
    if_pos h0
  have hsecond : closeEnd l.fd1 (E.closeDestination l.fd1) (.closeDestination l.fd1)
      (closeEnd l.fd0 (E.closeSource l.fd0) (.closeSource l.fd0) (l.status, r)) =
      (if d.1 < 0 then -1 else if c.1 < 0 then -1 else l.status,
        ⟨d.2, r.steps ++ [.closeSource l.fd0 c.1] ++ [.closeDestination l.fd1 d.1], r.out⟩) := by
    rw [hfirst]
    exact if_pos h1
  unfold copyDone at hstatus ⊢
  dsimp only at hstatus ⊢
  rw [hsecond] at hstatus ⊢
  dsimp only at hstatus ⊢
  rw [if_pos hstatus]
  exact ⟨by simp [Run.printf], rfl, rfl⟩

/-- A copy that succeeds moved as many bytes as the source said it has, all that was read was taken,
and what the steps of the loops keep holds after them. -/
theorem copy_success (hE : E.Sound) (source destination : CStr) (w : μ)
    (hstatus : (copy E source destination w).1 = 0) :
    let f := E.openSource w
    let n := E.seekEnd f.1 f.2
    let z := E.seekSet f.1 n.2
    let g := E.openDestination z.2
    let r := (copy E source destination w).2
    0 ≤ f.1 ∧ 0 ≤ toInt32 n.1 ∧ 0 ≤ z.1 ∧ 0 ≤ g.1 ∧ accepted r.steps = received r.steps ∧
      (received r.steps).length = (toInt32 n.1).toNat ∧ seekLength r.steps = n.1 ∧
      r.out.getLast? = some ⟨"\n\n [%d Bytes Copied]\n\n", [.int (toInt32 n.1)]⟩ ∧
      (∀ P : μ → List Step → Prop, KeptByReads E f.1 P → KeptByWrites E g.1 P →
        P g.2 [.openSource f.1, .seekEnd n.1, .seekSet z.1, .openDestination g.1] →
        ∃ w' steps, P w' steps ∧ received steps = received r.steps ∧
          accepted steps = accepted r.steps ∧
          r.world = (E.closeDestination g.1 (E.closeSource f.1 w').2).2) := by
  have hzero : (copyBody E source destination ⟨w, [], []⟩).1.status = 0 := copyDone_status hstatus
  have hcases := copyBody_cases (E := E) source destination w
  dsimp only at hcases ⊢
  set f := E.openSource w
  set n := E.seekEnd f.1 f.2
  set z := E.seekSet f.1 n.2
  set g := E.openDestination z.2
  rcases hcases with ⟨-, hl, -⟩ | ⟨-, -, hl, -⟩ | ⟨-, -, -, hl, -⟩ | ⟨-, -, -, -, hl, -⟩ |
    ⟨hopen, hsize, hset, hdest, l, hloop, hl, hb⟩
  · rw [hl] at hzero
    cases hzero
  · rw [hl] at hzero
    cases hzero
  · rw [hl] at hzero
    cases hzero
  · rw [hl] at hzero
    cases hzero
  set start : Run μ :=
    ⟨g.2, [.openSource f.1, .seekEnd n.1, .seekSet z.1, .openDestination g.1],
      [⟨"\n [%s --> %s]\n\n  Progress: ", [.string source, .string destination]⟩]⟩ with hstart
  have hok : l.1 = true := by
    rw [hl] at hzero
    by_contra hok
    exact absurd (hzero.symm.trans (if_neg hok)) (by decide)
  obtain ⟨ls, hls, hmoved, htotal⟩ := copyLoop_steps hE f.1 g.1 (toInt32 n.1) 0 start
  rw [← hloop] at hls hmoved htotal
  obtain ⟨hacc, hlen⟩ := hmoved.whole hok
  rw [Int.sub_zero] at hlen
  have hsteps : received l.2.2.steps = received ls ∧ accepted l.2.2.steps = accepted ls := by
    rw [hls, received_append, accepted_append]
    exact ⟨rfl, rfl⟩
  have hdone : (copyDone E ⟨f.1, g.1, l.2.1, if l.1 then 0 else -1⟩ l.2.2).1 = 0 := by
    rw [← hl, ← hb]
    exact hstatus
  obtain ⟨hdsteps, hdworld, hdout⟩ := copyDone_both _ l.2.2 hopen hdest hdone
  unfold copy
  dsimp only
  rw [hl, hb, hdsteps, hdworld, hdout, received_append, accepted_append, hsteps.1, hsteps.2]
  refine ⟨hopen, hsize, hset, hdest, ?_, ?_, ?_, ?_, ?_⟩
  · rw [hacc]
    rfl
  · rw [← hlen]
    exact congrArg List.length (List.append_nil (received ls))
  · rw [hls, hstart]
    simp
  · rw [List.getLast?_append, htotal hok hsize]
    rfl
  · intro P hread hwrite hP
    refine ⟨l.2.2.world, l.2.2.steps, ?_, ?_, ?_, rfl⟩
    · rw [hloop]
      exact copyLoop_keeps hE hread hwrite (toInt32 n.1) 0 start hP
    · rw [hsteps.1]
      exact (List.append_nil (received ls)).symm
    · rw [hsteps.2]
      exact (List.append_nil (accepted ls)).symm

/-- The length of the source, which is asked for once it is open. -/
theorem copy_seekLength (source destination : CStr) (w : μ) (hE : E.Sound) :
    seekLength (copy E source destination w).2.steps =
      if 0 ≤ (E.openSource w).1 then (E.seekEnd (E.openSource w).1 (E.openSource w).2).1 else 0 := by
  obtain ⟨closing, hsteps, hclosing⟩ :=
    copyDone_steps (E := E) (copyBody E source destination ⟨w, [], []⟩).1
      (copyBody E source destination ⟨w, [], []⟩).2
  have hnone : seekLength (.openSource (E.openSource w).1 :: closing) = 0 := by
    have hfind : closing.findSome? Step.seekResult = none := by
      apply List.findSome?_eq_none_iff.mpr
      intro s hs
      have hclosed := hclosing.closed s hs
      cases s <;> simp_all [Step.closed, Step.seekResult]
    rw [seekLength_open, seekLength, hfind]
    rfl
  unfold copy
  dsimp only
  rw [hsteps]
  rcases copyBody_cases (E := E) source destination w with ⟨hopen, -, hb⟩ | ⟨hopen, -, -, hb, -⟩ |
    ⟨hopen, -, -, -, hb⟩ | ⟨hopen, -, -, -, -, hb⟩ | ⟨hopen, -, -, -, l, hloop, -, hb⟩
  · rw [hb, if_neg (Int.not_le.mpr hopen)]
    exact hnone
  · rw [hb, if_pos hopen]
    simp
  · rw [hb, if_pos hopen]
    simp
  · rw [hb, if_pos hopen]
    simp
  · obtain ⟨ls, hls, -⟩ := copyLoop_steps hE _ _ _ 0 _
    rw [hb, hloop, hls, if_pos hopen]
    simp

/-- How often a copy reads. -/
theorem copy_reads (hE : E.Sound) (source destination : CStr) (w : μ) :
    (copy E source destination w).2.steps.countP Step.isRead ≤
      (seekLength (copy E source destination w).2.steps).toNat := by
  obtain ⟨closing, hsteps, hclosing⟩ :=
    copyDone_steps (E := E) (copyBody E source destination ⟨w, [], []⟩).1
      (copyBody E source destination ⟨w, [], []⟩).2
  have hnone : closing.countP Step.isRead = 0 := by
    apply List.countP_eq_zero.mpr
    intro s hs hread
    exact hclosing.closed s hs (closed_of_transfer (Or.inl hread)).1
  unfold copy
  dsimp only
  rw [hsteps, List.countP_append, hnone]
  rcases copyBody_cases (E := E) source destination w with ⟨-, -, hb⟩ | ⟨-, -, -, hb, -⟩ |
    ⟨-, -, -, -, hb⟩ | ⟨-, -, -, -, -, hb⟩ | ⟨-, hsize, -, -, l, hloop, -, hb⟩
  · simp [hb, Step.isRead]
  · simp [hb, Step.isRead]
  · simp [hb, Step.isRead]
  · simp [hb, Step.isRead]
  · obtain ⟨ls, hls, hmoved, -⟩ := copyLoop_steps hE _ _ _ 0 _
    have hreads := hmoved.reads
    rw [Int.sub_zero] at hreads
    have hn := fun hneg => Int.not_lt.mpr hsize (hE.seekEnd _ _ hneg)
    have hbound := hreads.trans (Int.toNat_le_toNat (toInt32_le (Int.not_lt.mp hn)))
    rw [hb, hloop, hls, List.countP_append]
    simpa [Step.isRead] using hbound

section Keeps

variable {Q : List Step → Prop}

theorem keeps_append (hother : ∀ steps s, ¬ (s.isRead = true ∨ s.isWrite = true) → Q steps →
    Q (steps ++ [s])) {steps more : List Step}
    (hmore : ∀ s ∈ more, ¬ (s.isRead = true ∨ s.isWrite = true)) (h : Q steps) :
    Q (steps ++ more) := by
  induction more generalizing steps with
  | nil => rwa [List.append_nil]
  | cons s more ih =>
    rw [← List.singleton_append, ← List.append_assoc]
    apply ih
    · intro t ht
      exact hmore t (List.mem_cons_of_mem s ht)
    · exact hother steps s (hmore s List.mem_cons_self) h

/-- What every step keeps holds of all steps of a copy. -/
theorem copy_keeps (hE : E.Sound) (hread : ∀ fd, KeptByReads E fd fun _ => Q)
    (hwrite : ∀ fd, KeptByWrites E fd fun _ => Q)
    (hother : ∀ steps s, ¬ (s.isRead = true ∨ s.isWrite = true) → Q steps → Q (steps ++ [s]))
    (hnil : Q []) (source destination : CStr) (w : μ) :
    Q (copy E source destination w).2.steps := by
  obtain ⟨closing, hsteps, hclosing⟩ :=
    copyDone_steps (E := E) (copyBody E source destination ⟨w, [], []⟩).1
      (copyBody E source destination ⟨w, [], []⟩).2
  have hend : ∀ s ∈ closing, ¬ (s.isRead = true ∨ s.isWrite = true) :=
    fun s hs htransfer => hclosing.closed s hs (closed_of_transfer htransfer).1
  unfold copy
  dsimp only
  rw [hsteps]
  apply keeps_append hother hend
  have hstart : ∀ more : List Step, (∀ s ∈ more, ¬ (s.isRead = true ∨ s.isWrite = true)) → Q more :=
    fun more hmore => keeps_append hother hmore hnil
  rcases copyBody_cases (E := E) source destination w with ⟨-, -, hb⟩ | ⟨-, -, -, hb, -⟩ |
    ⟨-, -, -, -, hb⟩ | ⟨-, -, -, -, -, hb⟩ | ⟨-, -, -, -, l, hloop, -, hb⟩
  · rw [hb]
    exact hstart _ (by simp [Step.isRead, Step.isWrite])
  · rw [hb]
    exact hstart _ (by simp [Step.isRead, Step.isWrite])
  · rw [hb]
    exact hstart _ (by simp [Step.isRead, Step.isWrite])
  · rw [hb]
    exact hstart _ (by simp [Step.isRead, Step.isWrite])
  · rw [hb, hloop]
    apply copyLoop_keeps hE (hread _) (hwrite _)
    exact hstart _ (by simp [Step.isRead, Step.isWrite])

end Keeps

/-- No step of a copy that succeeds has failed. What the steps of the loops keep holds when the two
files are closed. -/
theorem copy_kept (hE : E.Sound) (source destination : CStr) (w : μ)
    (hstatus : (copy E source destination w).1 = 0) :
    let f := E.openSource w
    let n := E.seekEnd f.1 f.2
    let z := E.seekSet f.1 n.2
    let g := E.openDestination z.2
    let b := copyBody E source destination ⟨w, [], []⟩
    let r := (copy E source destination w).2
    r.world = (E.closeDestination g.1 (E.closeSource f.1 b.2.world).2).2 ∧
      r.steps = b.2.steps ++ [.closeSource f.1 (E.closeSource f.1 b.2.world).1,
        .closeDestination g.1 (E.closeDestination g.1 (E.closeSource f.1 b.2.world).2).1] ∧
      (∀ s ∈ r.steps, ¬ s.Failed) ∧
      ∀ P : μ → List Step → Prop, KeptByReads E f.1 P → KeptByWrites E g.1 P →
        P g.2 [.openSource f.1, .seekEnd n.1, .seekSet z.1, .openDestination g.1] →
        P b.2.world b.2.steps := by
  intro f n z g b r
  obtain ⟨hopen, hsize, hset, hdest, -⟩ := copy_success hE source destination w hstatus
  have hgood : ∀ s ∈ r.steps, ¬ s.Failed := by
    have hjudged : ¬ E.Misjudges w := fun hbad => Int.not_lt.mpr hsize hbad.2.2.1
    rcases ((copy_tidy_iff hE source destination w).mpr hjudged).status with ⟨-, hgood⟩ | ⟨hneg, -⟩
    · exact hgood
    · rw [hstatus] at hneg
      cases hneg
  have hcases := copyBody_cases (E := E) source destination w
  dsimp only at hcases
  rcases hcases with ⟨hbad, -⟩ | ⟨-, hbad, -⟩ | ⟨-, -, hbad, -⟩ | ⟨-, -, -, hbad, -⟩ |
    ⟨-, -, -, -, l, hloop, hl, hb⟩
  · exact absurd hbad (Int.not_lt.mpr hopen)
  · exact absurd hbad (Int.not_lt.mpr hsize)
  · exact absurd hbad (Int.not_lt.mpr hset)
  · exact absurd hbad (Int.not_lt.mpr hdest)
  have hdone : (copyDone E ⟨f.1, g.1, l.2.1, if l.1 then 0 else -1⟩ l.2.2).1 = 0 := by
    rw [← hl, ← hb]
    exact hstatus
  obtain ⟨hsteps, hworld, -⟩ := copyDone_both _ l.2.2 hopen hdest hdone
  have hr : r = (copyDone E ⟨f.1, g.1, l.2.1, if l.1 then 0 else -1⟩ l.2.2).2 := by
    rw [← hl, ← hb]
    rfl
  have hbody : b.2 = l.2.2 := hb
  rw [hbody]
  refine ⟨(congrArg Run.world hr).trans hworld, (congrArg Run.steps hr).trans hsteps, hgood, ?_⟩
  intro P hread hwrite hstart
  rw [hloop]
  exact copyLoop_keeps hE hread hwrite (toInt32 n.1) 0 _ hstart

/-- What every step up to the label `done` keeps holds there, whether the copy succeeds or not. -/
theorem copyBody_keeps (hE : E.Sound) (source destination : CStr) (w : μ)
    {P : μ → List Step → Prop} :
    let f := E.openSource w
    let n := E.seekEnd f.1 f.2
    let z := E.seekSet f.1 n.2
    let g := E.openDestination z.2
    let b := copyBody E source destination ⟨w, [], []⟩
    P f.2 [.openSource f.1] → P n.2 [.openSource f.1, .seekEnd n.1] →
      P z.2 [.openSource f.1, .seekEnd n.1, .seekSet z.1] →
      P g.2 [.openSource f.1, .seekEnd n.1, .seekSet z.1, .openDestination g.1] →
      KeptByReads E f.1 P → KeptByWrites E g.1 P → P b.2.world b.2.steps := by
  intro f n z g b hopen hend hset hdest hread hwrite
  by_cases hf : f.1 < 0
  · have hb : b = _ := if_pos hf
    rw [hb]
    exact hopen
  by_cases hn : toInt32 n.1 < 0
  · have hb : b = _ := (if_neg hf).trans (if_pos hn)
    rw [hb]
    exact hend
  by_cases hz : z.1 < 0
  · have hb : b = _ := (if_neg hf).trans ((if_neg hn).trans (if_pos hz))
    rw [hb]
    exact hset
  by_cases hg : g.1 < 0
  · have hb : b = _ := (if_neg hf).trans ((if_neg hn).trans ((if_neg hz).trans (if_pos hg)))
    rw [hb]
    exact hdest
  have hb : b = _ := (if_neg hf).trans ((if_neg hn).trans ((if_neg hz).trans (if_neg hg)))
  rw [hb]
  exact copyLoop_keeps hE hread hwrite (toInt32 n.1) 0 _ hdest

/-! ## What a server serves -/

/-- Reads that get consecutive bytes of a file get its first bytes. -/
theorem received_of_consecutive {file : List Byte} {steps : List Step}
    (h : Consecutive file steps) : ∃ rest, received steps ++ rest = file := by
  induction steps using List.reverseRecOn with
  | nil => exact ⟨file, rfl⟩
  | append_singleton steps s ih =>
    obtain ⟨hbefore, hs⟩ := (always_snoc _ _ _).mp h
    obtain ⟨rest, hrest⟩ := ih hbefore
    rw [← hrest, List.drop_left] at hs
    obtain ⟨rest', hrest'⟩ := hs
    refine ⟨rest', ?_⟩
    rw [received_append, show received [s] = s.received by simp [received], List.append_assoc,
      hrest', hrest]

/-! ## A host and a server that never fail -/

theorem copyDone_good (l : Locals) (r : Run μ) (h0 : 0 ≤ l.fd0)
    (h1 : 0 ≤ l.fd1) (hc : 0 ≤ (E.closeSource l.fd0 r.world).1)
    (hd : 0 ≤ (E.closeDestination l.fd1 (E.closeSource l.fd0 r.world).2).1) :
    (copyDone E l r).1 = l.status := by
  simp [copyDone, closeEnd, h0, h1, Run.take, Int.not_lt.mpr hc, Int.not_lt.mpr hd]

/-- A host that creates no files. -/
theorem fileHost_creates (path : List Byte) : CreatesFile fileHost id path := by
  intro fs flags mode hpath _
  left
  have hnone : fs.lookup path = none := hpath
  by_cases hfree : fs.opened 3 ≠ none
  · simp only [fileHost, if_pos hfree]
    rfl
  · simp only [fileHost, if_neg hfree, hnone]
    rfl

/-- A local read is not seen on the connection. -/
theorem hostRead_sock {σ : Type} (h : Host σ) (fd count : Int) (w : World σ) :
    (hostRead h fd count w).2.2.sock = w.sock := by
  unfold hostRead
  dsimp only
  split <;> rfl

section Copyfrom

variable {σ : Type} (e : Endian) {h : Host σ} {view : σ → HostFiles} (source destination : CStr)

/-! ## `fsclient_copyfrom` -/

theorem command_view (hp : PosixHost h view) (c : Command) (w : World σ) :
    view (command e h c w).2.2.host = view w.host := hp.uninit _ _

/-- The descriptor `fd` is at the end of the file `i`, which holds `data` and which `path` leads to. -/
structure Filled (fs : HostFiles) (path : List Byte) (fd : Int) (i : Nat) (data : List Byte) :
    Prop where
  lookup : fs.lookup path = some i
  content : fs.content i = data
  opened : ∃ f, fs.opened fd = some f ∧ f.inode = i ∧ f.position = data.length

theorem Filled.write {fs : HostFiles} {path data more : List Byte} {fd : Int} {i : Nat}
    (hf : Filled fs path fd i data) : Filled (fs.write fd more) path fd i (data ++ more) := by
  obtain ⟨f, hopened, rfl, hposition⟩ := hf.opened
  obtain ⟨hcontent, hopened', hlookup⟩ :=
    write_at_end hopened (by rw [hf.content, hposition]) more
  refine ⟨?_, ?_, _, hopened', rfl, ?_⟩
  · rw [hlookup, hf.lookup]
  · rw [hcontent, hf.content]
  · rw [hposition, List.length_append]

/-- The destination is new or emptied. -/
theorem openDestination_filled (hp : PosixHost h view)
    (hc : CreatesFile h view destination.bytes) (w : World σ)
    (hfd : (0 : Int) ≤ ((copyfromEnds e h source destination).openDestination w).1) :
    ∃ i, Filled (view ((copyfromEnds e h source destination).openDestination w).2.host)
      destination.bytes ((copyfromEnds e h source destination).openDestination w).1 i [] := by
  set r := (copyfromEnds e h source destination).openDestination w with hr
  cases hpath : (view w.host).lookup destination.bytes with
  | none =>
    obtain hfail | ⟨fd, i, -, hresult, hlookup, hcontent, hopened⟩ :=
      hc w.host (O_WRONLY ||| O_CREAT ||| O_TRUNC) 0o644 hpath (by decide)
    · have hfail : r.1 = -1 := hfail
      omega
    · have hresult : r.1 = fd := hresult
      rw [hresult]
      refine ⟨i, hlookup, ?_, _, (congrFun hopened fd).trans (open_opened ..), rfl, rfl⟩
      exact (congrFun hcontent i).trans (Function.update_self ..)
  | some i =>
    have hflags : (O_WRONLY ||| O_CREAT ||| O_TRUNC) &&& O_TRUNC = 0 ∨
        (O_WRONLY ||| O_CREAT ||| O_TRUNC) &&& Ps2link.O_ACCMODE ≠ O_RDONLY := by decide
    obtain hfail | ⟨fd, -, hresult, hopen⟩ := hp.open 0o644 hpath hflags
    · have hfail : r.1 = -1 := hfail
      omega
    · have hresult : r.1 = fd := hresult
      rw [hresult, show view r.2.host = _ from hopen]
      refine ⟨i, hpath, ?_, _, open_opened .., rfl, rfl⟩
      exact (open_content ..).trans (if_pos (by decide))

/-- What the destination holds is what it took. -/
theorem filled_keptByWrites (hp : PosixHost h view) (path : List Byte) (fd : Int) (i : Nat) :
    KeptByWrites (copyfromEnds e h source destination) fd
      (fun w steps => Filled (view w.host) path fd i (accepted steps)) := by
  intro data w steps hf
  obtain ⟨f, hopened, -, -⟩ := hf.opened
  rw [accepted_append, accepted_write]
  rcases hp.write data hopened with ⟨hresult, hview⟩ | ⟨n, hn, hresult, hview⟩
  · rw [show ((copyfromEnds e h source destination).write fd data w).1 = -1 from hresult,
      show view ((copyfromEnds e h source destination).write fd data w).2.host = _ from hview]
    simpa using hf
  · rw [show ((copyfromEnds e h source destination).write fd data w).1 = n from hresult,
      show view ((copyfromEnds e h source destination).write fd data w).2.host = _ from hview,
      Int.toNat_natCast]
    exact hf.write

theorem filled_keptByReads (hp : PosixHost h view) (path : List Byte) (fd fd' : Int) (i : Nat) :
    KeptByReads (copyfromEnds e h source destination) fd'
      (fun w steps => Filled (view w.host) path fd i (accepted steps)) := by
  intro count w steps _ _ hf
  have hview : view ((copyfromEnds e h source destination).read fd' count w).2.2.host = view w.host :=
    command_view e hp _ w
  rw [hview, accepted_append, accepted_read, List.append_nil]
  exact hf

theorem FitsBuffer.snoc {steps : List Step} {s : Step} (h : FitsBuffer steps)
    (hs : s.isRead = false) : FitsBuffer (steps ++ [s]) := by
  intro count result data hmem
  rcases List.mem_append.mp hmem with hmem | hmem
  · exact h count result data hmem
  · rw [← List.mem_singleton.mp hmem] at hs
    cases hs

theorem fitsBuffer_keptByReads (fd : Int) :
    KeptByReads (copyfromEnds e h source destination) fd (fun _ steps => FitsBuffer steps) := by
  intro count w steps hpos hmax hfits count' result data hmem
  rcases List.mem_append.mp hmem with hmem | hmem
  · exact hfits count' result data hmem
  · obtain ⟨rfl, -, rfl⟩ := Step.read.inj (List.mem_singleton.mp hmem)
    refine ⟨?_, hmax⟩
    have hstored := (call_read_stored e (.ofInt 32 fd) (.ofInt 32 count')
      (h.uninit (6 + sizeof (Command.read (.ofInt 32 fd) (.ofInt 32 count')).fields) w.host).1
      w.sock).1
    rw [show (BitVec.ofInt 32 count').toInt = count' from
      toInt32_of_fits (by omega) (by omega)] at hstored
    have hlength : ((copyfromEnds e h source destination).read fd count' w).2.1.length ≤
        count'.toNat := hstored
    omega

theorem fitsBuffer_keptByWrites (fd : Int) :
    KeptByWrites (copyfromEnds e h source destination) fd (fun _ steps => FitsBuffer steps) :=
  fun _ _ _ hfits => hfits.snoc rfl

theorem copyfrom_fitsBuffer (hh : Bounded h) (w : World σ) :
    FitsBuffer (copyfrom e h source destination w).2.steps := by
  refine copy_keeps (copyfromEnds_sound e source destination hh)
    (fun fd => fitsBuffer_keptByReads e source destination fd)
    (fun fd => fitsBuffer_keptByWrites e source destination fd)
    (fun _ _ hs hfits => hfits.snoc (eq_false_of_ne_true fun h => hs (Or.inl h))) nofun
    source destination w

/-- Closing changes no file. -/
theorem copyfrom_closes (hp : PosixHost h view) {fd0 fd1 : Int} {w w' : World σ}
    (hw' : w' = ((copyfromEnds e h source destination).closeDestination fd1
      ((copyfromEnds e h source destination).closeSource fd0 w).2).2) :
    (view w'.host).lookup = (view w.host).lookup ∧
      (view w'.host).content = (view w.host).content := by
  subst hw'
  have hsource : view ((copyfromEnds e h source destination).closeSource fd0 w).2.host =
      view w.host := command_view e hp (.close (.ofInt 32 fd0)) w
  rw [show view (World.host _) = _ from hp.close fd1 _, hsource]
  exact ⟨rfl, rfl⟩

theorem copyfrom_success (hh : Bounded h) (hp : PosixHost h view)
    (hc : CreatesFile h view destination.bytes) (w : World σ)
    (hstatus : (copyfrom e h source destination w).1 = 0) :
    let r := (copyfrom e h source destination w).2
    ((received r.steps).length : Int) = seekLength r.steps ∧
      ∃ i, (view r.world.host).lookup destination.bytes = some i ∧
        (view r.world.host).content i = received r.steps := by
  have hE := copyfromEnds_sound e source destination hh
  intro r
  obtain ⟨-, hsize, -, hdest, hacc, hlen, hseek, -, hkeeps⟩ :=
    copy_success hE source destination w hstatus
  rw [copyfromEnds_seekEnd] at hsize hlen
  obtain ⟨i, hfilled⟩ := openDestination_filled e source destination hp hc _ hdest
  obtain ⟨w', steps, hend, -, haccepted, hworld⟩ := hkeeps _
    (filled_keptByReads e source destination hp destination.bytes _ _ i)
    (filled_keptByWrites e source destination hp destination.bytes _ i) hfilled
  have hview := copyfrom_closes e source destination hp hworld
  refine ⟨?_, i, (congrFun hview.1 _).trans hend.lookup, ?_⟩
  · have hlength : (received r.steps).length = _ := hlen
    have hseek : seekLength r.steps = _ := hseek
    rw [hlength, hseek, Int.toNat_of_nonneg hsize]
  · refine (congrFun hview.2 i).trans (hend.content.trans ?_)
    rw [haccepted]
    exact hacc

/-- `fsclient_copyfrom` against any server: it reads at most as often as the source is said to have
bytes, never stores more than the buffer holds, and when it returns 0 the destination holds exactly
what was read, which is as much as the source is said to have. -/
theorem copyfrom_complete (hh : Bounded h) (hp : PosixHost h view)
    (hc : CreatesFile h view destination.bytes) (w : World σ) :
    let status := (copyfrom e h source destination w).1
    let r := (copyfrom e h source destination w).2
    r.steps.countP Step.isRead ≤ (seekLength r.steps).toNat ∧ FitsBuffer r.steps ∧
      (status = 0 → ((received r.steps).length : Int) = seekLength r.steps ∧
        ∃ i, (view r.world.host).lookup destination.bytes = some i ∧
          (view r.world.host).content i = received r.steps ∧
          ∀ file, (file.length : Int) = seekLength r.steps → Consecutive file r.steps →
            (view r.world.host).content i = file) := by
  have hE := copyfromEnds_sound e source destination hh
  intro status r
  refine ⟨copy_reads hE source destination w, copyfrom_fitsBuffer e source destination hh w, ?_⟩
  intro hstatus
  obtain ⟨hlength, i, hlookup, hcontent⟩ := copyfrom_success e source destination hh hp hc w hstatus
  refine ⟨hlength, i, hlookup, hcontent, fun file hfile hserved => ?_⟩
  obtain ⟨rest, hrest⟩ := received_of_consecutive hserved
  have hnone : rest = [] := by
    apply List.eq_nil_of_length_eq_zero
    have hsum := congrArg List.length hrest
    rw [List.length_append] at hsum
    have hsame : ((received r.steps).length : Int) = file.length := hlength.trans hfile.symm
    omega
  rw [← hrest, hnone, List.append_nil]
  exact hcontent

/-- A file of one byte from the server takes the place of another. -/
theorem copyfrom_complete_byte :
    let status := (copyfrom .little fileHost pathX pathX downloadWorld).1
    let r := (copyfrom .little fileHost pathX pathX downloadWorld).2
    status = 0 ∧ received r.steps = [7] ∧
      r.steps.countP Step.isRead ≤ (seekLength r.steps).toNat ∧ FitsBuffer r.steps ∧
      (status = 0 → ((received r.steps).length : Int) = seekLength r.steps ∧
        ∃ i, (id r.world.host).lookup pathX.bytes = some i ∧
          (id r.world.host).content i = received r.steps ∧
          ∀ file, (file.length : Int) = seekLength r.steps → Consecutive file r.steps →
            (id r.world.host).content i = file) := by
  intro status r
  obtain ⟨hstatus, hsteps, -⟩ := copyfrom_byte
  refine ⟨hstatus, ?_, copyfrom_complete .little pathX pathX fileHost_bounded fileHost_posix
    (fileHost_creates _) downloadWorld⟩
  rw [show r.steps = _ from hsteps]
  rfl

end Copyfrom

end Fsclient

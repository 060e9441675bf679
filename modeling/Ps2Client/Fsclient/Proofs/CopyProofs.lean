import Ps2Client.CMemory.Proofs.StructProofs
import Ps2Client.Fsclient.Complete
import Ps2Client.Fsclient.Tidy
import Ps2Client.History.Proofs.PastProofs

/-!
# Proofs: the body of the copies
-/

namespace Fsclient

open CMemory History

variable {μ : Type}

/-- The numbers that the two files return are `int`s, and those that are not checked need no check. -/
structure Ends.Sound (E : Ends μ) : Prop where
  seekEnd : ∀ (fd : Int) (w : μ), (E.seekEnd fd w).1 < 0 → toInt32 (E.seekEnd fd w).1 < 0
  read : ∀ (fd count : Int) (w : μ), 0 ≤ count → count ≤ 28000 →
    toInt32 (E.read fd count w).1 = (E.read fd count w).1 ∧
      (E.checksRead = false → (E.read fd count w).1 ≤ count) ∧
      (0 ≤ (E.read fd count w).1 → ((E.read fd count w).2.1.length : Int) = (E.read fd count w).1)
  write : ∀ (fd : Int) (data : List Byte) (w : μ), data.length ≤ 28000 →
    toInt32 (E.write fd data w).1 = (E.write fd data w).1 ∧
      (E.checksWrite = false → (E.write fd data w).1 ≤ data.length)

variable {E : Ends μ}

/-- A number that needs no check is as good as checked. -/
theorem check_iff {checks : Bool} {x bound : Int} (h : checks = false → x ≤ bound) :
    (x ≤ 0 ∨ (checks = true ∧ bound < x)) ↔ x ≤ 0 ∨ bound < x := by
  cases checks with
  | true => simp
  | false =>
    have := h rfl
    simp only [Bool.false_eq_true, false_and, or_false]
    omega

/-! ## The inner loop -/

theorem writeLoop_end (fd : Int) (buffer : List Byte) {bytes sent : Int} (h : ¬ sent < bytes)
    (r : Run μ) : writeLoop E fd buffer bytes sent r = (true, r) := by
  rw [writeLoop, if_neg h]

/-- One write: the loop stops exactly when it failed. -/
theorem writeLoop_step (hE : E.Sound) (fd : Int) (buffer : List Byte) {bytes sent : Int}
    (h : sent < bytes) (hlen : bytes - sent ≤ 28000) (r : Run μ) :
    let data := peek buffer sent.toNat (bytes - sent).toNat
    let w := r.take (E.write fd data) (.write data)
    (Step.write data w.1).Failed ∧ (writeLoop E fd buffer bytes sent r).1 = false ∧
        (writeLoop E fd buffer bytes sent r).2.steps = w.2.steps ∧
        (writeLoop E fd buffer bytes sent r).2.world = w.2.world ∨
      ¬ (Step.write data w.1).Failed ∧
        writeLoop E fd buffer bytes sent r = writeLoop E fd buffer bytes (sent + w.1) w.2 := by
  intro data w
  have hdata : (data.length : Int) = bytes - sent := by
    rw [peek_length]
    omega
  obtain ⟨hint, hle⟩ := hE.write fd data r.world (by omega)
  rw [writeLoop, if_pos h]
  dsimp only
  rw [show toInt32 (r.take (E.write fd data) (.write data)).1 = w.1 from hint]
  have hcheck := check_iff hle
  rw [hdata] at hcheck
  split_ifs with hfail
  · left
    refine ⟨?_, rfl, rfl, rfl⟩
    simp only [Step.Failed, hdata]
    exact hcheck.mp hfail
  · right
    refine ⟨?_, rfl⟩
    simp only [Step.Failed, hdata]
    exact mt hcheck.mpr hfail

@[simp] theorem accepted_nil : accepted [] = [] := rfl

@[simp] theorem accepted_append (xs ys : List Step) :
    accepted (xs ++ ys) = accepted xs ++ accepted ys := List.flatMap_append

@[simp] theorem received_nil : received [] = [] := rfl

@[simp] theorem received_append (xs ys : List Step) :
    received (xs ++ ys) = received xs ++ received ys := List.flatMap_append

theorem accepted_write (data : List Byte) (result : Int) :
    accepted [.write data result] = data.take result.toNat := by
  simp [accepted, Step.accepted]

theorem accepted_read (count result : Int) (data : List Byte) :
    accepted [.read count result data] = [] := by
  simp [accepted, Step.accepted]

theorem received_read (count result : Int) (data : List Byte) :
    received [.read count result data] = data := by
  simp [received, Step.received]

theorem received_write (data : List Byte) (result : Int) : received [.write data result] = [] := rfl

theorem isRead_of_isWrite {s : Step} (h : s.isWrite = true) : s.isRead = false := by
  cases s <;> simp_all [Step.isWrite, Step.isRead]

/-- A `write` receives nothing. -/
theorem received_writes {ws : List Step} (h : ∀ s ∈ ws, s.isWrite = true) : received ws = [] := by
  apply List.flatMap_eq_nil_iff.mpr
  intro s hs
  have hw := h s hs
  cases s <;> simp_all [Step.isWrite, Step.received]

/-- The writes of the inner loop. When it ends well, what the destination took of them is the rest
of the buffer. -/
theorem writeLoop_steps (hE : E.Sound) (fd : Int) (buffer : List Byte) (bytes : Int) {sent : Int}
    (hsent : 0 ≤ sent) (hlen : bytes ≤ 28000) (r : Run μ) :
    ∃ ws, (writeLoop E fd buffer bytes sent r).2.steps = r.steps ++ ws ∧
      (∀ s ∈ ws, s.isWrite = true) ∧
      Straight Step.Failed (writeLoop E fd buffer bytes sent r).1 ws ∧
      ((writeLoop E fd buffer bytes sent r).1 = true →
        accepted ws = peek buffer sent.toNat (bytes - sent).toNat) := by
  induction hn : (bytes - sent).toNat using Nat.strong_induction_on generalizing sent r with
  | _ n ih =>
    by_cases h : sent < bytes
    · have hstep := writeLoop_step hE fd buffer h (by omega) r
      dsimp only at hstep
      rw [hn] at hstep
      set data := peek buffer sent.toNat n with hdata
      have hlength : data.length = n := by rw [hdata, peek_length]
      set w := r.take (E.write fd data) (.write data) with hw
      rcases hstep with ⟨hbad, hfalse, hsteps, -⟩ | ⟨hgood, heq⟩
      · refine ⟨[.write data w.1], hsteps, by simp [Step.isWrite], ?_, ?_⟩
        · rw [hfalse]
          exact straight_bad hbad
        · rw [hfalse]
          nofun
      · have ⟨hpos, hle⟩ : ¬ w.1 ≤ 0 ∧ ¬ (data.length : Int) < w.1 := not_or.mp hgood
        obtain ⟨ws, hsteps, hwrites, hstraight, hacc⟩ :=
          ih (bytes - (sent + w.1)).toNat (by omega) (by omega) w.2 rfl
        rw [heq]
        refine ⟨.write data w.1 :: ws, ?_, ?_, ?_, ?_⟩
        · rw [hsteps, hw]
          simp [Run.take]
        · simpa [Step.isWrite] using hwrites
        · exact Straight.append (straight_good hgood) hstraight
        · intro hok
          rw [← List.singleton_append, accepted_append, accepted_write, hacc hok, hdata,
            ← peek_take _ _ (by omega), show (sent + w.1).toNat = sent.toNat + w.1.toNat by omega,
            ← peek_add]
          congr 1
          omega
    · rw [writeLoop_end fd buffer h]
      refine ⟨[], by simp, by simp, straight_nil, ?_⟩
      intro _
      rw [show n = 0 by omega]
      simp [peek]

/-! ## The outer loop -/

/-- A chunk is not empty, fits the buffer and is no more than what is left. -/
theorem chunk_bounds {size total : Int} (h : total < size) :
    0 < chunk size total ∧ chunk size total ≤ 28000 ∧ chunk size total ≤ size - total := by
  unfold chunk
  split_ifs <;> omega

theorem copyLoop_end (fd0 fd1 : Int) {size total : Int} (h : ¬ total < size) (r : Run μ) :
    copyLoop E fd0 fd1 size total r = (true, total, r) := by
  rw [copyLoop, if_neg h]

/-- One read: the loop stops exactly when it failed or one of the writes after it did. -/
theorem copyLoop_step (hE : E.Sound) (fd0 fd1 : Int) {size total : Int} (h : total < size)
    (r : Run μ) :
    let count := chunk size total
    let d := r.takeRead (E.read fd0 count) count
    let w := writeLoop E fd1 d.2.1 d.1 0 d.2.2
    let l := copyLoop E fd0 fd1 size total r
    (Step.read count d.1 d.2.1).Failed ∧ l.1 = false ∧ l.2.2.steps = d.2.2.steps ∧
        l.2.2.world = d.2.2.world ∨
      ¬ (Step.read count d.1 d.2.1).Failed ∧
        (w.1 = false ∧ l = (false, total, w.2) ∨
          w.1 = true ∧ l = copyLoop E fd0 fd1 size (total + d.1) (w.2.printf "#" [])) := by
  intro count d w l
  obtain ⟨hcount, hmax, -⟩ := chunk_bounds h
  obtain ⟨hint, hle, -⟩ := hE.read fd0 count r.world (by omega) hmax
  have hl : l = if d.1 ≤ 0 ∨ (E.checksRead = true ∧ count < d.1) then
      (false, total, d.2.2.printf (E.readFailed d.1).format (E.readFailed d.1).args)
    else if w.1 then copyLoop E fd0 fd1 size (total + d.1) (w.2.printf "#" [])
    else (false, total, w.2) := by
    unfold l
    rw [copyLoop, if_pos h]
    dsimp only
    rw [show toInt32 (r.takeRead (E.read fd0 (chunk size total)) (chunk size total)).1 = d.1 from
      hint]
  have hcheck := check_iff hle
  split_ifs at hl with hfail hok
  · left
    rw [hl]
    exact ⟨hcheck.mp hfail, rfl, rfl, rfl⟩
  · exact Or.inr ⟨mt hcheck.mpr hfail, Or.inr ⟨hok, hl⟩⟩
  · exact Or.inr ⟨mt hcheck.mpr hfail, Or.inl ⟨by simpa using hok, hl⟩⟩

/-- The steps of a part of the outer loop that was to move `bytes` bytes. When it ends well, the
destination took all that was read. -/
structure Moved (ok : Bool) (bytes : Nat) (steps : List Step) : Prop where
  kinds : ∀ s ∈ steps, s.isRead = true ∨ s.isWrite = true
  straight : Straight Step.Failed ok steps
  reads : steps.countP Step.isRead ≤ bytes
  whole : ok = true → accepted steps = received steps ∧ (received steps).length = bytes

theorem Moved.nil : Moved true 0 [] where
  kinds := by simp
  straight := straight_nil
  reads := by simp
  whole _ := ⟨rfl, rfl⟩

/-- A part that moved everything, and one behind it. -/
theorem Moved.append {ok : Bool} {a b : Nat} {xs ys : List Step} (hxs : Moved true a xs)
    (hys : Moved ok b ys) : Moved ok (a + b) (xs ++ ys) where
  kinds := by
    intro s hs
    rcases List.mem_append.mp hs with hs | hs
    · exact hxs.kinds s hs
    · exact hys.kinds s hs
  straight := hxs.straight.append hys.straight
  reads := by
    have ha := hxs.reads
    have hb := hys.reads
    rw [List.countP_append]
    omega
  whole := by
    intro hok
    obtain ⟨hx, hxlen⟩ := hxs.whole rfl
    obtain ⟨hy, hylen⟩ := hys.whole hok
    rw [accepted_append, received_append, hx, hy, List.length_append, hxlen, hylen]
    exact ⟨rfl, rfl⟩

theorem Moved.mono {a b : Nat} {xs : List Step} (h : Moved false a xs) (hab : a ≤ b) :
    Moved false b xs where
  kinds := h.kinds
  straight := h.straight
  reads := h.reads.trans hab
  whole := nofun

/-- A read that fails moves nothing. -/
theorem Moved.failed_read {count result : Int} {data : List Byte}
    (hbad : (Step.read count result data).Failed) : Moved false 1 [.read count result data] where
  kinds := by simp [Step.isRead]
  straight := straight_bad hbad
  reads := by simp [Step.isRead]
  whole := nofun

/-- A read that succeeds, and the writes of what it stored. -/
theorem Moved.piece {ok : Bool} {count result : Int} {data : List Byte} {ws : List Step}
    (hgood : ¬ (Step.read count result data).Failed) (hlen : (data.length : Int) = result)
    (hwrites : ∀ s ∈ ws, s.isWrite = true) (hws : Straight Step.Failed ok ws)
    (hacc : ok = true → accepted ws = data) :
    Moved ok result.toNat (.read count result data :: ws) where
  kinds := by
    intro s hs
    rcases List.mem_cons.mp hs with rfl | hs
    · exact Or.inl rfl
    · exact Or.inr (hwrites s hs)
  straight := (straight_good hgood).append hws
  reads := by
    have hpos : ¬ result ≤ 0 := (not_or.mp hgood).1
    have hnone : ws.countP Step.isRead = 0 := by
      apply List.countP_eq_zero.mpr
      intro s hs
      rw [isRead_of_isWrite (hwrites s hs)]
      nofun
    rw [List.countP_cons, hnone]
    simp only [Step.isRead, if_true]
    omega
  whole := by
    intro hok
    rw [← List.singleton_append, accepted_append, received_append, received_read,
      received_writes hwrites, hacc hok, List.append_nil]
    refine ⟨rfl, ?_⟩
    omega

/-- The steps of the copy move the file chunk by chunk, and all of it if the loop says so. -/
theorem copyLoop_steps (hE : E.Sound) (fd0 fd1 size total : Int) (r : Run μ) :
    ∃ ls, (copyLoop E fd0 fd1 size total r).2.2.steps = r.steps ++ ls ∧
      Moved (copyLoop E fd0 fd1 size total r).1 (size - total).toNat ls ∧
      ((copyLoop E fd0 fd1 size total r).1 = true → total ≤ size →
        (copyLoop E fd0 fd1 size total r).2.1 = size) := by
  induction hn : (size - total).toNat using Nat.strong_induction_on generalizing total r with
  | _ n ih =>
    by_cases h : total < size
    · obtain ⟨hcount, hmax, hrest⟩ := chunk_bounds h
      have hstep := copyLoop_step hE fd0 fd1 h r
      obtain ⟨-, -, hdata⟩ := hE.read fd0 (chunk size total) r.world (by omega) hmax
      dsimp only at hstep
      set d := r.takeRead (E.read fd0 (chunk size total)) (chunk size total) with hd
      have hsteps : d.2.2.steps = r.steps ++ [.read (chunk size total) d.1 d.2.1] := rfl
      rcases hstep with ⟨hbad, hfalse, hl, -⟩ | ⟨hgood, hl⟩
      · rw [hfalse]
        exact ⟨_, hl.trans hsteps, (Moved.failed_read hbad).mono (by omega), nofun⟩
      · have ⟨hpos, hle⟩ : ¬ d.1 ≤ 0 ∧ ¬ chunk size total < d.1 := not_or.mp hgood
        have hlength : (d.2.1.length : Int) = d.1 := hdata (by change 0 ≤ d.1; omega)
        obtain ⟨ws, hwsteps, hwrites, hws, hacc⟩ :=
          writeLoop_steps hE fd1 d.2.1 d.1 (Int.le_refl 0) (by omega) d.2.2
        have hpiece := Moved.piece hgood hlength hwrites hws fun hok => by
          rw [hacc hok, Int.sub_zero, ← hlength]
          exact peek_self d.2.1
        rcases hl with ⟨hfalse, hl⟩ | ⟨htrue, hl⟩
        · rw [hl]
          rw [hfalse] at hpiece
          refine ⟨_, ?_, hpiece.mono (by omega), nofun⟩
          rw [hwsteps, hsteps, List.append_assoc, List.singleton_append]
        · rw [htrue] at hpiece
          set w := writeLoop E fd1 d.2.1 d.1 0 d.2.2
          obtain ⟨ls, hlsteps, hmoved, hend⟩ :=
            ih (size - (total + d.1)).toNat (by omega) (total + d.1) (w.2.printf "#" []) rfl
          have hall := hpiece.append hmoved
          rw [show d.1.toNat + (size - (total + d.1)).toNat = n by omega] at hall
          rw [hl]
          refine ⟨_, ?_, hall, ?_⟩
          · rw [hlsteps]
            simp [Run.printf, hwsteps, hsteps]
          · intro hok _
            exact hend hok (by omega)
    · rw [copyLoop_end fd0 fd1 h, show n = 0 by omega]
      refine ⟨[], by simp, Moved.nil, ?_⟩
      intro _ hle
      dsimp only
      omega

/-! ## What the loops keep -/

section Keeps

variable {P : μ → List Step → Prop} {fd0 fd1 : Int}

/-- Writes keep `P`, which is about the world and the steps that led to it. -/
def KeptByWrites (E : Ends μ) (fd1 : Int) (P : μ → List Step → Prop) : Prop :=
  ∀ data w steps, P w steps → P (E.write fd1 data w).2 (steps ++ [.write data (E.write fd1 data w).1])

/-- Reads into the buffer keep `P`. -/
def KeptByReads (E : Ends μ) (fd0 : Int) (P : μ → List Step → Prop) : Prop :=
  ∀ count w steps, 0 < count → count ≤ 28000 → P w steps →
    P (E.read fd0 count w).2.2
      (steps ++ [.read count (E.read fd0 count w).1 (E.read fd0 count w).2.1])

/-- What every `write` keeps, the inner loop keeps. -/
theorem writeLoop_keeps (hE : E.Sound) (hwrite : KeptByWrites E fd1 P) (buffer : List Byte)
    (bytes : Int) {sent : Int} (hsent : 0 ≤ sent) (hlen : bytes ≤ 28000) (r : Run μ)
    (hr : P r.world r.steps) :
    P (writeLoop E fd1 buffer bytes sent r).2.world (writeLoop E fd1 buffer bytes sent r).2.steps := by
  induction hn : (bytes - sent).toNat using Nat.strong_induction_on generalizing sent r with
  | _ n ih =>
    by_cases h : sent < bytes
    · have hstep := writeLoop_step hE fd1 buffer h (by omega) r
      dsimp only at hstep
      set data := peek buffer sent.toNat (bytes - sent).toNat
      set w := r.take (E.write fd1 data) (.write data)
      have hw : P w.2.world w.2.steps := hwrite data r.world r.steps hr
      rcases hstep with ⟨-, -, hsteps, hworld⟩ | ⟨hgood, heq⟩
      · rw [hsteps, hworld]
        exact hw
      · have hpos : ¬ w.1 ≤ 0 := (not_or.mp hgood).1
        rw [heq]
        exact ih (bytes - (sent + w.1)).toNat (by omega) (by omega) w.2 hw rfl
    · rw [writeLoop_end fd1 buffer h]
      exact hr

/-- What every `read` and every `write` keeps, the copy keeps. -/
theorem copyLoop_keeps (hE : E.Sound) (hread : KeptByReads E fd0 P) (hwrite : KeptByWrites E fd1 P)
    (size total : Int) (r : Run μ) (hr : P r.world r.steps) :
    P (copyLoop E fd0 fd1 size total r).2.2.world (copyLoop E fd0 fd1 size total r).2.2.steps := by
  induction hn : (size - total).toNat using Nat.strong_induction_on generalizing total r with
  | _ n ih =>
    by_cases h : total < size
    · obtain ⟨hcount, hmax, -⟩ := chunk_bounds h
      have hstep := copyLoop_step hE fd0 fd1 h r
      dsimp only at hstep
      set d := r.takeRead (E.read fd0 (chunk size total)) (chunk size total)
      have hd : P d.2.2.world d.2.2.steps := hread _ r.world r.steps hcount hmax hr
      rcases hstep with ⟨-, -, hsteps, hworld⟩ | ⟨hgood, hl⟩
      · rw [hsteps, hworld]
        exact hd
      · have ⟨hpos, hle⟩ : ¬ d.1 ≤ 0 ∧ ¬ chunk size total < d.1 := not_or.mp hgood
        have hw := writeLoop_keeps hE hwrite d.2.1 d.1 (Int.le_refl 0) (by omega) d.2.2 hd
        rcases hl with ⟨-, hl⟩ | ⟨-, hl⟩
        · rw [hl]
          exact hw
        · rw [hl]
          exact ih (size - (total + d.1)).toNat (by omega) (total + d.1) _ hw rfl
    · rw [copyLoop_end fd0 fd1 h]
      exact hr

end Keeps

/-! ## Before the label -/

/-- Where the body goes to `done`, and what is known there. -/
theorem copyBody_cases (source destination : CStr) (w : μ) :
    let f := E.openSource w
    let n := E.seekEnd f.1 f.2
    let z := E.seekSet f.1 n.2
    let g := E.openDestination z.2
    let b := copyBody E source destination ⟨w, [], []⟩
    f.1 < 0 ∧ b.1 = { fd0 := f.1 } ∧ b.2.steps = [.openSource f.1] ∨
      0 ≤ f.1 ∧ toInt32 n.1 < 0 ∧ b.1 = { fd0 := f.1 } ∧
        b.2.steps = [.openSource f.1, .seekEnd n.1] ∧ b.2.world = n.2 ∨
      0 ≤ f.1 ∧ 0 ≤ toInt32 n.1 ∧ z.1 < 0 ∧ b.1 = { fd0 := f.1 } ∧
        b.2.steps = [.openSource f.1, .seekEnd n.1, .seekSet z.1] ∨
      0 ≤ f.1 ∧ 0 ≤ toInt32 n.1 ∧ 0 ≤ z.1 ∧ g.1 < 0 ∧ b.1 = { fd0 := f.1, fd1 := g.1 } ∧
        b.2.steps = [.openSource f.1, .seekEnd n.1, .seekSet z.1, .openDestination g.1] ∨
      0 ≤ f.1 ∧ 0 ≤ toInt32 n.1 ∧ 0 ≤ z.1 ∧ 0 ≤ g.1 ∧
        ∃ l, l = copyLoop E f.1 g.1 (toInt32 n.1) 0
            ⟨g.2, [.openSource f.1, .seekEnd n.1, .seekSet z.1, .openDestination g.1],
              [⟨"\n [%s --> %s]\n\n  Progress: ", [.string source, .string destination]⟩]⟩ ∧
          b.1 = ⟨f.1, g.1, l.2.1, if l.1 then 0 else -1⟩ ∧ b.2 = l.2.2 := by
  intro f n z g b
  by_cases hopen : f.1 < 0
  · have hb : b = _ := if_pos hopen
    rw [hb]
    exact Or.inl ⟨hopen, rfl, rfl⟩
  right
  by_cases hsize : toInt32 n.1 < 0
  · have hb : b = _ := (if_neg hopen).trans (if_pos hsize)
    rw [hb]
    exact Or.inl ⟨by omega, hsize, rfl, rfl, rfl⟩
  right
  by_cases hset : z.1 < 0
  · have hb : b = _ := (if_neg hopen).trans ((if_neg hsize).trans (if_pos hset))
    rw [hb]
    exact Or.inl ⟨by omega, by omega, hset, rfl, rfl⟩
  right
  by_cases hdest : g.1 < 0
  · have hb : b = _ :=
      (if_neg hopen).trans ((if_neg hsize).trans ((if_neg hset).trans (if_pos hdest)))
    rw [hb]
    exact Or.inl ⟨by omega, by omega, by omega, hdest, rfl, rfl⟩
  right
  have hb : b = _ :=
    (if_neg hopen).trans ((if_neg hsize).trans ((if_neg hset).trans (if_neg hdest)))
  rw [hb]
  exact ⟨by omega, by omega, by omega, by omega, _, rfl, rfl, rfl⟩

end Fsclient

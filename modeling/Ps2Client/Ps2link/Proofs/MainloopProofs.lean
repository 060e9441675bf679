import Ps2Client.Ps2link.Mainloop
import Ps2Client.Ps2link.Proofs.ConsoleProofs

/-!
# Proofs: the exit status of the main loop

Until the main loop is done, the console is what the packets scanned so far make of it; the three
places where the loop looks at the marker all look at that.
-/

namespace Ps2link

open CMemory

variable {marker : Option (List Byte)} {timeout : Int}

/-! ## A recorded status stays -/

/-- A status that was recorded stays, whatever line is checked, -/
theorem checkLine_record (m : List Byte) {c : Console} {status : Int}
    (hc : c.record = some status) : (checkLine m c).record = some status := by
  obtain ⟨hseen, -⟩ := Console.record_eq_some hc
  unfold checkLine
  dsimp only
  rw [if_pos hseen]
  exact hc

/-- whatever byte is scanned, -/
theorem scanByte_record (m : List Byte) {c : Console} {status : Int} (b : Byte)
    (hc : c.record = some status) : (scanByte m c b).record = some status := by
  unfold scanByte
  split
  · exact checkLine_record m hc
  · split
    · exact hc
    · have hroom : (makeRoom c).record = c.record := by
        unfold makeRoom
        split <;> rfl
      exact hroom.trans hc

/-- and whatever packet. -/
theorem scanConsole_record (packet : List Byte) {c : Console} {status : Int}
    (hc : c.record = some status) : (scanConsole marker packet c).record = some status := by
  cases marker with
  | none => exact hc
  | some m =>
    show (packet.foldl (scanByte m) c).record = some status
    induction packet generalizing c with
    | nil => exact hc
    | cons b packet ih => exact ih (scanByte_record m b hc)

/-- The check of the last line leaves it, -/
theorem checkLastLine_record {c : Console} {status : Int} (hc : c.record = some status) :
    (checkLastLine marker c).record = some status := by
  unfold checkLastLine
  split
  · split
    · exact checkLine_record _ hc
    · exact hc
  · exact hc

/-- every step of the main loop, -/
theorem mainStep_record (now : Int) {s : System} {status : Int}
    (hs : s.console.record = some status) :
    (mainStep marker timeout now s).console.record = some status := by
  unfold mainStep
  split
  · split <;> exact hs
  · split <;> exact hs
  · split
    · exact hs
    · split <;> exact hs
  · exact checkLastLine_record hs
  · exact checkLastLine_record hs
  · exact hs

/-- and every step of the three threads. -/
theorem Step.record {s s' : System} (hstep : Step marker timeout s s') {status : Int}
    (hs : s.console.record = some status) : s'.console.record = some status := by
  cases hstep with
  | main now => exact mainStep_record now hs
  | scan packet hpc => exact scanConsole_record packet hs
  | consoleActivity now hpc => exact hs
  | requestActivity now hpc => exact hs
  | lost hpc => exact hs

/-- Later lines with the marker do not change the recorded status. -/
theorem Run.record {s s' : System} (hrun : Run marker timeout s s') {status : Int}
    (hs : s.console.record = some status) : s'.console.record = some status := by
  induction hrun with
  | refl => exact hs
  | tail _ hstep ih => exact hstep.record ih

/-! ## The invariant -/

/-- The main loop has returned. -/
def MainPc.Done (pc : MainPc) : Prop := ∃ v, pc = .done v

structure System.Inv (marker : Option (List Byte)) (s : System) : Prop where
  scanned : ¬ s.mainPc.Done → s.console = scanPackets marker s.packets .initial
  lost : s.mainPc = .grace ∨ (∃ activity, s.mainPc = .checked activity true) → s.lost = true

theorem scanPackets_append (packets : List (List Byte)) (packet : List Byte) (c : Console) :
    scanPackets marker (packets ++ [packet]) c =
      scanConsole marker packet (scanPackets marker packets c) := by
  simp [scanPackets]

/-- A step of the main loop keeps the invariant, -/
theorem mainStep_inv (now : Int) {s : System} (hs : s.Inv marker) :
    (mainStep marker timeout now s).Inv marker := by
  obtain ⟨hscanned, hlost⟩ := hs
  unfold mainStep
  cases hpc : s.mainPc with
  | entry =>
    have hscan := hscanned (by simp [hpc, MainPc.Done])
    dsimp only
    split
    · exact ⟨fun hd => absurd ⟨_, rfl⟩ hd, by simp⟩
    · exact ⟨fun _ => hscan, by simp⟩
  | top =>
    have hscan := hscanned (by simp [hpc, MainPc.Done])
    dsimp only
    split
    · exact ⟨fun hd => absurd ⟨_, rfl⟩ hd, by simp⟩
    · refine ⟨fun _ => hscan, ?_⟩
      rintro (h | ⟨activity, h⟩)
      · cases h
      · exact (MainPc.checked.inj h).2
  | checked activity lost =>
    have hscan := hscanned (by simp [hpc, MainPc.Done])
    dsimp only
    split
    · rename_i hl
      exact ⟨fun _ => hscan, fun _ => hlost (.inr ⟨activity, by rw [hpc, hl]⟩)⟩
    · split <;> exact ⟨fun _ => hscan, by simp⟩
  | grace => exact ⟨fun hd => absurd ⟨_, rfl⟩ hd, by simp⟩
  | idle => exact ⟨fun hd => absurd ⟨_, rfl⟩ hd, by simp⟩
  | done v => exact ⟨hscanned, hlost⟩

/-- and so does a step of the threads, -/
theorem Step.inv {s s' : System} (hstep : Step marker timeout s s') (hs : s.Inv marker) :
    s'.Inv marker := by
  cases hstep with
  | main now => exact mainStep_inv now hs
  | scan packet hpc =>
    refine ⟨fun hd => ?_, hs.lost⟩
    rw [scanPackets_append, ← hs.scanned hd]
  | consoleActivity now hpc => exact ⟨hs.scanned, hs.lost⟩
  | requestActivity now hpc => exact ⟨hs.scanned, hs.lost⟩
  | lost hpc => exact ⟨hs.scanned, fun _ => rfl⟩

/-- and every run. -/
theorem Run.inv {s : System} {activity : Int} (hrun : Run marker timeout (.initial activity) s) :
    s.Inv marker := by
  induction hrun with
  | refl => exact ⟨fun _ => rfl, by simp [System.initial]⟩
  | tail _ hstep ih => exact hstep.inv ih

/-! ## The last section -/

/-- In the top section, only complete lines count. -/
theorem countedLines_top (packets : List (List Byte)) :
    countedLines .top packets = consoleLines packets.flatten := by
  simp [countedLines]

theorem retained_length_pos (line : List Byte) : 0 < (retained line).length ↔ line ≠ [] := by
  rw [retained_length]
  cases line with
  | nil => simp [retainedLength]
  | cons b line =>
    have : retainedLength (b :: line).length ≠ 0 := by
      unfold retainedLength
      split <;> simp
    simpa using Nat.pos_of_ne_zero this

/-- Without a marker there is no status. -/
theorem firstStatus_none (lines : List (List Byte)) : firstStatus none lines = none := rfl

/-- What is recorded is the status of the first marker line. -/
theorem scanPackets_record (packets : List (List Byte)) :
    (scanPackets marker packets .initial).record =
      firstStatus marker (consoleLines packets.flatten) := by
  cases marker with
  | none => rw [scanPackets_none, firstStatus_none]; rfl
  | some m => exact (scanPackets_holds m packets).2

/-- After the check of the last line, the first status is recorded of all the lines that count. -/
theorem checkLastLine_scanPackets {pc : MainPc} (hpc : pc ≠ .top) (packets : List (List Byte)) :
    (checkLastLine marker (scanPackets marker packets .initial)).record =
      firstStatus marker (countedLines pc packets) := by
  cases marker with
  | none =>
    show (scanPackets none packets .initial).record = _
    rw [scanPackets_none, firstStatus_none]
    rfl
  | some m =>
    obtain ⟨hholds, hrecord⟩ := scanPackets_holds m packets
    have hcheck := checkLine_holds m hholds
    have hcounted : firstStatus (some m) (countedLines pc packets) =
        ((consoleLines packets.flatten).findSome? fun l => lineStatus m (retained l)).or
          (if openLine packets.flatten = [] then none
            else lineStatus m (retained (openLine packets.flatten))) := by
      unfold firstStatus countedLines
      rw [Option.bind_some, List.findSome?_append]
      by_cases hopen : openLine packets.flatten = []
      · simp [hopen]
      · rw [if_neg (by simp [hpc, hopen]), if_neg hopen, List.findSome?_singleton]
    rw [hcounted, ← hrecord]
    unfold checkLastLine
    dsimp only
    by_cases hopen : openLine packets.flatten = []
    · have hlen : ¬ 0 < (scanPackets (some m) packets .initial).length := by
        rw [hholds.length, retained_length_pos]
        exact fun h => h hopen
      rw [if_neg (fun h => hlen h.2), if_pos hopen, Option.or_none]
    · have hlen : 0 < (scanPackets (some m) packets .initial).length := by
        rw [hholds.length, retained_length_pos]
        exact hopen
      rw [if_neg hopen]
      by_cases hseen : (scanPackets (some m) packets .initial).seen = true
      · rw [if_neg (by simp [hseen])]
        simp [Console.record, hseen]
      · rw [if_pos ⟨by simpa using hseen, hlen⟩]
        exact hcheck.2

/-- A complete line with the marker in the part kept gives a status. -/
theorem firstStatus_complete {m : List Byte} {pc : MainPc} {packets : List (List Byte)}
    {line : List Byte} (hline : line ∈ consoleLines packets.flatten) (hm : m <:+: retained line) :
    (firstStatus (some m) (countedLines pc packets)).isSome = true := by
  rw [firstStatus, Option.bind_some, List.findSome?_isSome_iff]
  refine ⟨line, List.mem_append_left _ hline, ?_⟩
  exact (lineStatus_isSome_iff ..).mpr hm

/-- What is recorded at the end of the last section decides. -/
theorem returns_of_record {s s' : System} {v : Int}
    (hrecord : s'.console.record = firstStatus marker (countedLines s.mainPc s.packets))
    (hseen : s'.console.seen = true → v = exitStatus s'.console.status)
    (hnot : s'.console.seen = false →
      s.mainPc = .grace ∧ s.lost = true ∧ v = EXIT_CONNLOST ∨
      s.mainPc = .idle ∧ v = if marker = none then EXIT_OK else EXIT_TIMEOUT) :
    Returns marker s s' v where
  seen := by rw [← hrecord, Console.record_isSome]
  recorded status hstatus := by
    obtain ⟨hs, rfl⟩ := Console.record_eq_some (hrecord.trans hstatus)
    exact hseen hs
  noMarker := hnot
  complete m hm line hline hfound := by
    subst hm
    rw [← Console.record_isSome, hrecord]
    exact firstStatus_complete hline hfound

/-- The step in which the main loop returns. -/
theorem mainStep_returns (htimeout : timeout ≠ 0) {now v : Int} {s : System} (hs : s.Inv marker)
    (hnot : ¬ s.mainPc.Done) (hdone : (mainStep marker timeout now s).mainPc = .done v) :
    Returns marker s (mainStep marker timeout now s) v := by
  have hscan := hs.scanned hnot
  -- both branches that end without the marker look at the last line first
  have hlast : s.mainPc ≠ .top → (checkLastLine marker s.console).record =
      firstStatus marker (countedLines s.mainPc s.packets) := by
    intro hpc
    rw [hscan]
    exact checkLastLine_scanPackets hpc s.packets
  cases hpc : s.mainPc with
  | entry =>
    simp only [mainStep, hpc, if_neg htimeout] at hdone
    cases hdone
  | top =>
    by_cases hseen : s.console.seen = true
    · have hstep : mainStep marker timeout now s =
          { s with mainPc := .done (exitStatus s.console.status) } := by
        simp only [mainStep, hpc, if_pos hseen]
      rw [hstep] at hdone ⊢
      cases hdone
      refine returns_of_record ?_ (fun _ => rfl) (fun hns => ?_)
      · rw [hpc, countedLines_top]
        exact (congrArg Console.record hscan).trans (scanPackets_record s.packets)
      · rw [show s.console.seen = false from hns] at hseen
        cases hseen
    · simp only [mainStep, hpc, if_neg hseen] at hdone
      cases hdone
  | checked activity lost =>
    simp only [mainStep, hpc] at hdone
    split at hdone
    · cases hdone
    · split at hdone <;> cases hdone
  | grace =>
    simp only [mainStep, hpc] at hdone ⊢
    cases hdone
    refine returns_of_record (hlast (by simp [hpc])) (fun hseen => if_pos hseen) (fun hns => ?_)
    exact .inl ⟨hpc, hs.lost (.inl hpc), if_neg (by simpa using hns)⟩
  | idle =>
    simp only [mainStep, hpc] at hdone ⊢
    cases hdone
    refine returns_of_record (hlast (by simp [hpc])) (fun hseen => if_pos hseen) (fun hns => ?_)
    refine .inr ⟨hpc, (if_neg (by simpa using hns)).trans ?_⟩
    by_cases hm : marker = none
    · rw [if_neg (not_not.mpr hm), if_pos hm]
    · rw [if_pos hm, if_neg hm]
  | done w => exact absurd ⟨w, hpc⟩ hnot

/-! ## Runs -/

/-- A main loop that has returned has returned. -/
theorem Step.done {s s' : System} (hstep : Step marker timeout s s') {v : Int}
    (hs : s.mainPc = .done v) : s'.mainPc = .done v := by
  cases hstep with
  | main now => simp only [mainStep, hs]
  | scan packet hpc => exact hs
  | consoleActivity now hpc => exact hs
  | requestActivity now hpc => exact hs
  | lost hpc => exact hs

/-- A run in which the main loop has returned has a step in which it returned. -/
theorem Run.last_section {s₀ s : System} (hrun : Run marker timeout s₀ s) (h₀ : ¬ s₀.mainPc.Done)
    {v : Int} (hs : s.mainPc = .done v) :
    ∃ s₁ now, Run marker timeout s₀ s₁ ∧ ¬ s₁.mainPc.Done ∧
      (mainStep marker timeout now s₁).mainPc = .done v ∧
      Run marker timeout (mainStep marker timeout now s₁) s := by
  induction hrun with
  | refl => exact absurd ⟨v, hs⟩ h₀
  | @tail s₁ s₂ hrun hstep ih =>
    by_cases hd : s₁.mainPc.Done
    · obtain ⟨w, hw⟩ := hd
      have hwv : w = v := MainPc.done.inj ((hstep.done hw).symm.trans hs)
      obtain ⟨s', now, hrun', hnot, hdone, hrest⟩ := ih (hwv ▸ hw)
      exact ⟨s', now, hrun', hnot, hdone, hrest.tail hstep⟩
    · cases hstep with
      | main now => exact ⟨s₁, now, hrun, hd, hs, .refl⟩
      | scan packet hpc => exact absurd ⟨v, hs⟩ hd
      | consoleActivity now hpc => exact absurd ⟨v, hs⟩ hd
      | requestActivity now hpc => exact absurd ⟨v, hs⟩ hd
      | lost hpc => exact absurd ⟨v, hs⟩ hd

/-- Without a marker the console stays as it was. -/
theorem Step.console_none {s s' : System} (hstep : Step none timeout s s') :
    s'.console = s.console := by
  cases hstep with
  | main now =>
    unfold mainStep
    split
    · split <;> rfl
    · split <;> rfl
    · split
      · rfl
      · split <;> rfl
    · rfl
    · rfl
    · rfl
  | scan packet hpc => rfl
  | consoleActivity now hpc => rfl
  | requestActivity now hpc => rfl
  | lost hpc => rfl

/-- Without a marker the console scanner does nothing at all. -/
theorem Run.console_none {s s' : System} (hrun : Run none timeout s s') :
    s'.console = s.console := by
  induction hrun with
  | refl => rfl
  | tail _ hstep ih => exact hstep.console_none.trans ih

/-- The exit status of the main loop, in every interleaving. -/
theorem mainloop_status (htimeout : timeout ≠ 0) {activity : Int} {s : System}
    (hrun : Run marker timeout (.initial activity) s) {v : Int} (hv : s.mainPc = .done v) :
    (∃ s₁ now, Run marker timeout (.initial activity) s₁ ∧ ¬ s₁.mainPc.Done ∧
      Run marker timeout (mainStep marker timeout now s₁) s ∧
      (mainStep marker timeout now s₁).mainPc = .done v ∧
      Returns marker s₁ (mainStep marker timeout now s₁) v) ∧
    (∀ s₁ s₂, Run marker timeout (.initial activity) s₁ → Run marker timeout s₁ s₂ →
      s₁.console.seen = true →
      s₂.console.seen = true ∧ s₂.console.status = s₁.console.status) ∧
    (marker = none → s.console = .initial) := by
  refine ⟨?_, ?_, ?_⟩
  · obtain ⟨s₁, now, hrun₁, hnot, hdone, hrest⟩ :=
      hrun.last_section (by simp [System.initial, MainPc.Done]) hv
    exact ⟨s₁, now, hrun₁, hnot, hrest, hdone, mainStep_returns htimeout hrun₁.inv hnot hdone⟩
  · intro s₁ s₂ _ hrun₂ hseen
    have hrecord : s₁.console.record = some s₁.console.status := if_pos hseen
    exact Console.record_eq_some (hrun₂.record hrecord)
  · rintro rfl
    exact hrun.console_none

/-- The console thread may scan any packets while the other two threads wait. -/
theorem Run.scanned (packets : List (List Byte)) :
    ∀ s : System, s.consolePc = .waiting → Run marker timeout s
      { s with console := scanPackets marker packets s.console, packets := s.packets ++ packets } := by
  induction packets with
  | nil =>
    intro s _
    rw [List.append_nil]
    exact .refl
  | cons packet packets ih =>
    intro s hpc
    let s₁ : System :=
      { s with console := scanConsole marker packet s.console, packets := s.packets ++ [packet] }
    have hscan : Run marker timeout s s₁ := by
      have hsame : { s₁ with consolePc := .waiting } = s₁ := by rw [← hpc]
      rw [← hsame]
      exact .head (.scan packet s hpc) (.single (.consoleActivity s.activity _ rfl))
    have hrest := ih s₁ hpc
    rw [List.append_assoc] at hrest
    exact hscan.trans hrest

/-- The line with the marker comes in two packets, and its status is the exit status. -/
theorem mainloop_status_marked :
    let marker : Option (List Byte) := some [ascii 'M']
    let packets : List (List Byte) :=
      [['M', ' ', 's', 't', 'a'].map ascii, ['t', 'u', 's', '=', '3', '\n', 'x'].map ascii]
    ∃ s : System, s.packets = packets ∧ Run marker 1 (.initial 0) s ∧ s.mainPc = .done 3 ∧
      ∃ s₁ now, Run marker 1 (.initial 0) s₁ ∧ ¬ s₁.mainPc.Done ∧
        Run marker 1 (mainStep marker 1 now s₁) s ∧
        (mainStep marker 1 now s₁).mainPc = .done 3 ∧
        Returns marker s₁ (mainStep marker 1 now s₁) 3 := by
  intro marker packets
  have hrecord : (scanPackets marker packets .initial).record = some 3 := by
    have hlines : firstStatus marker (consoleLines packets.flatten) = some 3 := by decide
    rw [← hlines]
    exact scanPackets_record packets
  have hscanned : Run marker 1 ⟨.initial, 5, false, .top, .waiting, .serving, []⟩
      ⟨scanPackets marker packets .initial, 5, false, .top, .waiting, .serving, packets⟩ :=
    Run.scanned packets _ rfl
  generalize scanPackets marker packets .initial = c at hrecord hscanned
  obtain ⟨hseen, hstatus⟩ := Console.record_eq_some hrecord
  let s : System := ⟨c, 5, false, .top, .waiting, .serving, packets⟩
  have hdone : mainStep marker 1 9 s = { s with mainPc := .done 3 } := by
    have hexit : exitStatus c.status = 3 := by
      rw [hstatus]
      decide
    rw [← hexit]
    exact if_pos hseen
  have hrun : Run marker 1 (.initial 0) { s with mainPc := .done 3 } := by
    rw [← hdone]
    exact .head (.main 5 (.initial 0)) (hscanned.tail (.main 9 s))
  exact ⟨_, rfl, hrun, rfl, (mainloop_status (by decide) hrun rfl).1⟩

/-- A line of 4096 bytes with the marker at its start has been scanned, and the loop returns as if
there were none when the connection is lost. -/
theorem mainloop_status_missed :
    let marker : Option (List Byte) := some [ascii 'M']
    let line : List Byte := ascii 'M' :: List.replicate 4095 (ascii 'a')
    ∃ s : System, Run marker (-1) (.initial 0) s ∧ s.packets = [line ++ [LF]] ∧
      consoleLines s.packets.flatten = [line] ∧ [ascii 'M'] <:+: line ∧ s.mainPc = .grace ∧
      (mainStep marker (-1) 8 s).mainPc = .done EXIT_CONNLOST := by
  intro marker line
  have hflat : [line ++ [LF]].flatten = longLine ++ [LF] := List.flatten_singleton
  obtain ⟨hlines, hopen⟩ := consoleLines_longLine
  have hnone : firstStatus marker [longLine] = none := by
    rw [firstStatus, Option.bind_some, List.findSome?_cons, lineStatus_longLine]
    rfl
  have hscan : (scanPackets marker [line ++ [LF]] .initial).record = none := by
    rw [scanPackets_record, hflat, hlines, hnone]
  have hlast : (checkLastLine marker (scanPackets marker [line ++ [LF]] .initial)).record = none := by
    rw [checkLastLine_scanPackets (show MainPc.grace ≠ .top by decide), countedLines, hflat, hlines,
      hopen, if_pos (.inr rfl), List.append_nil, hnone]
  have hscanned : Run marker (-1) ⟨.initial, 5, false, .top, .waiting, .serving, []⟩
      ⟨scanPackets marker [line ++ [LF]] .initial, 5, false, .top, .waiting, .serving,
        [line ++ [LF]]⟩ :=
    Run.scanned [line ++ [LF]] _ rfl
  generalize scanPackets marker [line ++ [LF]] .initial = c at hscan hlast hscanned
  have hseen : ∀ c' : Console, c'.record = none → c'.seen = false := by
    intro c' hc'
    rw [← Console.record_isSome, hc']
    rfl
  let s : System := ⟨c, 5, true, .top, .waiting, .ended, [line ++ [LF]]⟩
  have htop : mainStep marker (-1) 6 s = { s with mainPc := .checked 5 true } :=
    if_neg (by simp [s, hseen c hscan])
  have hrun : Run marker (-1) (.initial 0) { s with mainPc := .grace } := by
    have hlost : Run marker (-1) (.initial 0) s :=
      .head (.main 5 (.initial 0)) (hscanned.tail (.lost _ rfl))
    have hchecked := hlost.tail (.main 6 s)
    rw [htop] at hchecked
    exact hchecked.tail (.main 7 _)
  refine ⟨{ s with mainPc := .grace }, hrun, rfl, ?_, ⟨[], _, rfl⟩, rfl, ?_⟩
  · exact (congrArg consoleLines hflat).trans hlines
  · exact congrArg MainPc.done (if_neg (by simp [s, hseen _ hlast]))

end Ps2link

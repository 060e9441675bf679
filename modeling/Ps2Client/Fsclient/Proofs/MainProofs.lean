import Ps2Client.CMemory.Proofs.OptionsProofs
import Ps2Client.Fsclient.Main

/-!
# Proofs: fsclient and incomplete commands
-/

namespace Fsclient

open CMemory Ps2netfs Main

/-! ## Options -/

theorem setPairs_option {pairs : List (CStr × CStr)} (h : ∀ p ∈ pairs, isHostOption p.1 = true)
    (hostname : List Byte) : ∃ hostname', setPairs option pairs hostname = some hostname' := by
  refine setPairs_some option (fun p hp => ?_) hostname
  exact ⟨_, if_pos (h p hp), fun hostname => ⟨_, rfl⟩⟩

theorem isHostOption_of_setPairs {pairs : List (CStr × CStr)} {hostname hostname' : List Byte}
    (h : setPairs option pairs hostname = some hostname') :
    ∀ p ∈ pairs, isHostOption p.1 = true := by
  intro p hp
  obtain ⟨o, -, -, ho, -⟩ := setPairs_each option h p hp
  by_contra hnot
  rw [option, if_neg hnot] at ho
  cases ho

theorem option_eq_none {arg : CStr} : option arg = none ↔ isHostOption arg = false := by
  unfold option
  split_ifs with h
  · simp [h]
  · simpa using h

theorem Line.commandLine {argv operands : List CStr} {name : CStr} (hline : Line argv name operands)
    (hostname : List Byte) :
    ∃ hostname', CommandLine option hostname argv name operands hostname' := by
  obtain ⟨program, pairs, rfl, hpairs, hname⟩ := hline
  obtain ⟨hostname', hset⟩ := setPairs_option hpairs hostname
  exact ⟨hostname', program, pairs, rfl, hset, option_eq_none.mpr hname⟩

theorem line_of_commandLine {argv operands : List CStr} {name : CStr} {hostname hostname' : List Byte}
    (hline : CommandLine option hostname argv name operands hostname') : Line argv name operands := by
  obtain ⟨program, pairs, hargv, hset, hname⟩ := hline
  exact ⟨program, pairs, hargv, isHostOption_of_setPairs hset, option_eq_none.mp hname⟩

/-! ## The vector -/

/-- With a command on the line `main` counts the operands of a copy and goes on with the network. -/
theorem main_line (net : Net) (env : List CStr) {argv operands : List CStr} {name : CStr}
    (hline : Line argv name operands) :
    ∃ hostname, main net env argv =
      if isCopy name ∧ operands.length < 2 then
        ([.printed ⟨"Error: Copy commands need source and destination paths.\n", []⟩], some (-1))
      else perform net hostname name (element operands) := by
  obtain ⟨hostname, hcommand⟩ := hline.commandLine (environment env initialHostname)
  obtain ⟨hlen, k, hloop, hbase⟩ := hcommand.loop
  refine ⟨hostnameString hostname, ?_⟩
  have hoperand : (fun j => element argv (k + 1 + j)) = element operands := funext hbase.operand
  unfold main
  rw [if_neg (by omega), hloop]
  dsimp only
  rw [hbase.argc, if_neg (by omega), Nat.add_sub_cancel, hbase.command, hoperand]
  dsimp only
  exact if_congr (and_congr_right fun _ => by omega) rfl rfl

/-- Without a command nothing is called, and `main` returns an error. -/
theorem main_other (net : Net) (env : List CStr) {argv : List CStr}
    (hline : ∀ name operands, ¬ Line argv name operands) :
    (main net env argv).2 = some (-1) ∧ ∀ c, .call c ∉ (main net env argv).1 := by
  unfold main
  dsimp only
  split_ifs with hlen
  · exact ⟨rfl, by simp⟩
  · obtain ⟨program, rest, rfl⟩ : ∃ program rest, argv = program :: rest := by
      cases argv with
      | nil => exact absurd (by decide) hlen
      | cons program rest => exact ⟨program, rest, rfl⟩
    rcases optionLoop_cases option program rest (environment env initialHostname) with
      ⟨name, operands, hostname, hcommand⟩ | ⟨message, hloop⟩ | ⟨hostname, hloop⟩
    · exact absurd (line_of_commandLine hcommand) (hline name operands)
    · rw [hloop]
      exact ⟨rfl, by simp⟩
    · rw [hloop]
      dsimp only
      rw [if_pos (by omega)]
      exact ⟨rfl, by simp⟩

/-! ## The call -/

/-- The operands of a call are among those on the line. -/
def Call.Given (c : Call) (operands : List CStr) : Prop :=
  ∀ p ∈ c.operands, ∃ s ∈ operands, p = some s

/-- What the dispatch reads and calls for a command of each arity. -/
theorem dispatch_cases (name : CStr) (operand : Nat → Option (Option CStr)) :
    (arity name = 2 ∧ ∃ f : Option CStr → Option CStr → Call, (∀ p q, (f p q).operands = [p, q]) ∧
        dispatch name operand = do return some (f (← operand 0) (← operand 1))) ∨
      (arity name = 1 ∧ ∃ f : Option CStr → Call, (∀ p, (f p).operands = [p]) ∧
        dispatch name operand = do return some (f (← operand 0))) ∨
      arity name = 0 ∧
        (dispatch name operand = some none ∨ dispatch name operand = some (some .devlist)) := by
  by_cases h₁ : name.bytes = literal "copyfrom"
  · refine .inl ⟨by rw [arity, h₁]; decide, .copyfrom, fun _ _ => rfl, ?_⟩
    rw [dispatch, if_pos h₁]
  by_cases h₂ : name.bytes = literal "copyto"
  · refine .inl ⟨by rw [arity, h₂]; decide, .copyto, fun _ _ => rfl, ?_⟩
    rw [dispatch, if_neg h₁, if_pos h₂]
  by_cases h₃ : name.bytes = literal "delete"
  · refine .inr (.inl ⟨by rw [arity, h₃]; decide, .delete, fun _ => rfl, ?_⟩)
    rw [dispatch, if_neg h₁, if_neg h₂, if_pos h₃]
  by_cases h₄ : name.bytes = literal "devlist"
  · refine .inr (.inr ⟨by rw [arity, h₄]; decide, .inr ?_⟩)
    rw [dispatch, if_neg h₁, if_neg h₂, if_neg h₃, if_pos h₄]
    rfl
  by_cases h₅ : name.bytes = literal "dir"
  · refine .inr (.inl ⟨by rw [arity, h₅]; decide, .dir, fun _ => rfl, ?_⟩)
    rw [dispatch, if_neg h₁, if_neg h₂, if_neg h₃, if_neg h₄, if_pos h₅]
  by_cases h₆ : name.bytes = literal "mkdir"
  · refine .inr (.inl ⟨by rw [arity, h₆]; decide, .mkdir, fun _ => rfl, ?_⟩)
    rw [dispatch, if_neg h₁, if_neg h₂, if_neg h₃, if_neg h₄, if_neg h₅, if_pos h₆]
  by_cases h₇ : name.bytes = literal "mount"
  · refine .inl ⟨by rw [arity, h₇]; decide, .mount, fun _ _ => rfl, ?_⟩
    rw [dispatch, if_neg h₁, if_neg h₂, if_neg h₃, if_neg h₄, if_neg h₅, if_neg h₆, if_pos h₇]
  by_cases h₈ : name.bytes = literal "rmdir"
  · refine .inr (.inl ⟨by rw [arity, h₈]; decide, .rmdir, fun _ => rfl, ?_⟩)
    rw [dispatch, if_neg h₁, if_neg h₂, if_neg h₃, if_neg h₄, if_neg h₅, if_neg h₆, if_neg h₇,
      if_pos h₈]
  by_cases h₉ : name.bytes = literal "sync"
  · refine .inr (.inl ⟨by rw [arity, h₉]; decide, .sync, fun _ => rfl, ?_⟩)
    rw [dispatch, if_neg h₁, if_neg h₂, if_neg h₃, if_neg h₄, if_neg h₅, if_neg h₆, if_neg h₇,
      if_neg h₈, if_pos h₉]
  by_cases h₁₀ : name.bytes = literal "umount"
  · refine .inr (.inl ⟨by rw [arity, h₁₀]; decide, .umount, fun _ => rfl, ?_⟩)
    rw [dispatch, if_neg h₁, if_neg h₂, if_neg h₃, if_neg h₄, if_neg h₅, if_neg h₆, if_neg h₇,
      if_neg h₈, if_neg h₉, if_pos h₁₀]
  refine .inr (.inr ⟨?_, .inl ?_⟩)
  · simp only [arity, List.mem_cons, List.not_mem_nil, h₁, h₂, h₃, h₅, h₆, h₇, h₈, h₉, h₁₀, or_self,
      if_false]
  · rw [dispatch, if_neg h₁, if_neg h₂, if_neg h₃, if_neg h₄, if_neg h₅, if_neg h₆, if_neg h₇,
      if_neg h₈, if_neg h₉, if_neg h₁₀]
    rfl

section

variable {name : CStr} {operands : List CStr}

/-- A command with its operands is called with them, or unknown. -/
theorem dispatch_complete (hlen : arity name ≤ operands.length) :
    dispatch name (element operands) = some none ∨
      ∃ c, dispatch name (element operands) = some (some c) ∧ c.Given operands := by
  rcases dispatch_cases name (element operands) with
    ⟨htwo, f, hf, hrun⟩ | ⟨hone, f, hf, hrun⟩ | ⟨-, hrun | hrun⟩
  · obtain ⟨s, hs, helem⟩ := element_some operands (show 0 < operands.length by omega)
    obtain ⟨t, ht, helem'⟩ := element_some operands (show 1 < operands.length by omega)
    refine .inr ⟨f (some s) (some t), by rw [hrun, helem, helem']; rfl, ?_⟩
    rw [Call.Given, hf]
    intro p hp
    rcases List.mem_cons.mp hp with rfl | hp
    · exact ⟨s, hs, rfl⟩
    · rw [List.mem_singleton.mp hp]
      exact ⟨t, ht, rfl⟩
  · obtain ⟨s, hs, helem⟩ := element_some operands (show 0 < operands.length by omega)
    refine .inr ⟨f (some s), by rw [hrun, helem]; rfl, ?_⟩
    rw [Call.Given, hf]
    intro p hp
    rw [List.mem_singleton.mp hp]
    exact ⟨s, hs, rfl⟩
  · exact .inl hrun
  · exact .inr ⟨.devlist, hrun, nofun⟩

/-- A command with missing operands is called all the same, unless the vector is read beyond its
end. -/
theorem dispatch_missing (hlen : operands.length < arity name) :
    dispatch name (element operands) = none ∨
      ∃ c, dispatch name (element operands) = some (some c) := by
  rcases dispatch_cases name (element operands) with
    ⟨-, f, -, hrun⟩ | ⟨-, f, -, hrun⟩ | ⟨hzero, -⟩
  · rw [hrun]
    cases element operands 0 with
    | none => exact .inl rfl
    | some p =>
      cases element operands 1 with
      | none => exact .inl rfl
      | some q => exact .inr ⟨f p q, rfl⟩
  · rw [hrun]
    cases element operands 0 with
    | none => exact .inl rfl
    | some p => exact .inr ⟨f p, rfl⟩
  · omega

/-! ## The functions that are called -/

theorem perform_returns {net : Net} {hostname : CStr} {operand : Nat → Option (Option CStr)}
    (h : (perform net hostname name operand).2 = none) : dispatch name operand = none := by
  unfold perform at h
  split_ifs at h
  split at h
  · assumption
  · cases h
  · cases h

theorem perform_calls {net : Net} {hostname : CStr} {operand : Nat → Option (Option CStr)} {c : Call}
    (h : .call c ∈ (perform net hostname name operand).1) :
    dispatch name operand = some (some c) := by
  unfold perform at h
  split_ifs at h
  · simp at h
  · simp at h
  · split at h
    · simp at h
    · simp at h
    · rename_i c' hcall
      have hc : c = c' := by simpa using h
      rw [hc]
      exact hcall

/-- The network is there, and every function returns zero. -/
def quietNet : Net := ⟨0, fun _ => 0, fun _ => 0⟩

theorem perform_quiet (hostname : CStr) (operand : Nat → Option (Option CStr)) :
    (perform quietNet hostname name operand).2 =
      (dispatch name operand).map fun c => if c.isSome then 0 else -1 := by
  unfold perform
  rw [if_neg (show ¬ quietNet.startup < 0 by decide),
    if_neg (show ¬ quietNet.connect hostname < 0 from Int.lt_irrefl 0)]
  cases dispatch name operand with
  | none => rfl
  | some c => cases c <;> rfl

/-- There is one way to read a line. -/
theorem Line.unique {argv operands' : List CStr} {name' : CStr} (h : Line argv name operands)
    (h' : Line argv name' operands') : name = name' ∧ operands = operands' := by
  obtain ⟨program, pairs, rfl, hpairs, hname⟩ := h
  obtain ⟨program', pairs', heq, hpairs', hname'⟩ := h'
  obtain ⟨hostname, hset⟩ := setPairs_option hpairs []
  obtain ⟨hostname', hset'⟩ := setPairs_option hpairs' []
  have htake := takeOptions_pairs option operands hset (option_eq_none.mpr hname)
  have htake' := takeOptions_pairs option operands' hset' (option_eq_none.mpr hname')
  rw [(List.cons.inj heq).2, htake'] at htake
  cases htake
  exact ⟨rfl, rfl⟩

theorem arity_copy (h : isCopy name) : arity name = 2 := by
  rcases h with h | h <;> rw [arity, h] <;> decide

end

/-! ## Complete commands -/

theorem dispatchesComplete_of_line {argv operands : List CStr} {name : CStr}
    (hline : Line argv name operands) (hlen : operands.length < arity name → isCopy name) :
    DispatchesComplete argv := by
  intro net env
  obtain ⟨hostname, hrun⟩ := main_line net env hline
  rw [hrun]
  split_ifs with hcopy
  · exact ⟨Option.some_ne_none _, fun c hc => by simp at hc,
      fun _ _ _ _ => ⟨⟨-1, rfl, by decide⟩, fun c hc => by simp at hc⟩⟩
  · have henough : arity name ≤ operands.length := by
      by_contra hshort
      have h := hlen (by omega)
      rw [arity_copy h] at hshort
      exact hcopy ⟨h, by omega⟩
    have hcomplete := dispatch_complete henough
    refine ⟨fun hnone => ?_, fun c hc => ⟨name, operands, hline, ?_⟩, fun name' operands' hline' hlt => ?_⟩
    · have hdispatch := perform_returns hnone
      rcases hcomplete with hunknown | ⟨c, hcall, -⟩
      · rw [hdispatch] at hunknown
        cases hunknown
      · rw [hdispatch] at hcall
        cases hcall
    · have hdispatch := perform_calls hc
      rcases hcomplete with hunknown | ⟨c', hcall, hgiven⟩
      · rw [hdispatch] at hunknown
        cases hunknown
      · rw [hdispatch] at hcall
        cases hcall
        exact hgiven
    · obtain ⟨rfl, rfl⟩ := hline.unique hline'
      omega

/-- Missing operands of a command that is not a copy are not noticed. -/
theorem not_dispatchesComplete_of_line {argv operands : List CStr} {name : CStr}
    (hline : Line argv name operands) (hlen : operands.length < arity name) (hcopy : ¬ isCopy name) :
    ¬ DispatchesComplete argv := by
  intro hall
  obtain ⟨hdefined, -, hmissing⟩ := hall quietNet []
  obtain ⟨⟨code, hcode, hne⟩, -⟩ := hmissing name operands hline hlen
  obtain ⟨hostname, hrun⟩ := main_line quietNet [] hline
  rw [if_neg fun h => hcopy h.1] at hrun
  rw [hrun, perform_quiet] at hdefined hcode
  rcases dispatch_missing hlen with hnone | ⟨c, hcall⟩
  · rw [hnone] at hdefined
    exact hdefined rfl
  · rw [hcall] at hcode
    cases hcode
    exact hne rfl

/-- `main` dispatches only complete commands, but for those of one and two operands whose operands
it does not count. -/
theorem dispatchesComplete_iff (argv : List CStr) :
    DispatchesComplete argv ↔
      ∀ name operands, Line argv name operands → operands.length < arity name → isCopy name := by
  constructor
  · intro hall name operands hline hlen
    by_contra hcopy
    exact not_dispatchesComplete_of_line hline hlen hcopy hall
  · intro hguard
    by_cases hline : ∃ name operands, Line argv name operands
    · obtain ⟨name, operands, hline⟩ := hline
      exact dispatchesComplete_of_line hline (hguard name operands hline)
    · have hnot : ∀ name operands, ¬ Line argv name operands := fun name operands h =>
        hline ⟨name, operands, h⟩
      intro net env
      obtain ⟨hcode, hcalls⟩ := main_other net env hnot
      refine ⟨by rw [hcode]; exact Option.some_ne_none _, fun c hc => absurd hc (hcalls c), ?_⟩
      exact fun name operands h => absurd h (hnot name operands)

/-- `fsclient delete`: a command without a path is sent. -/
theorem delete_without_operand :
    let program : CStr := ⟨literal "fsclient", by decide⟩
    let name : CStr := ⟨literal "delete", by decide⟩
    (∃ hostname, main quietNet [] [program, name] =
        ([.startup, .connect hostname, .call (.delete none)], some 0)) ∧
      (∃ c, (Call.delete none).first = some c ∧ ¬ c.Refused) ∧
      ¬ DispatchesComplete [program, name] := by
  intro program name
  have hline : Line [program, name] name [] := ⟨program, [], rfl, nofun, by decide⟩
  refine ⟨?_, ⟨_, rfl, id⟩, not_dispatchesComplete_of_line hline (by decide) (by decide)⟩
  obtain ⟨hostname, hrun⟩ := main_line quietNet [] hline
  refine ⟨hostname, hrun.trans ?_⟩
  rw [if_neg (by decide)]
  rfl

end Fsclient

import Ps2Client.CMemory.Proofs.OptionsProofs
import Ps2Client.Main.CommandLine

/-!
# Proofs: the grammar of the command line
-/

namespace Main

open CMemory Utility

/-! ## Options -/

theorem cstr_setHostname (hostname : List Byte) (value : CStr) :
    cstr (setHostname hostname value.bytes) = value.bytes.take 255 := by
  rw [setHostname, snprintf_eq]
  exact cstr_append_zero (fun hmem => value.noNull (List.mem_of_mem_take hmem)) _

theorem option_cases {arg : CStr} {o : Opt Settings} (ho : option arg = some o) :
    (arg.bytes = literal "-h" ∧ o.set = setHost) ∨ (arg.bytes = literal "-t" ∧ o.set = setTimeout) ∨
      (arg.bytes = literal "-e" ∧ o.set = setMarker) := by
  unfold option at ho
  by_cases hh : arg.bytes = literal "-h"
  · rw [if_pos hh] at ho
    cases ho
    exact .inl ⟨hh, rfl⟩
  by_cases ht : arg.bytes = literal "-t"
  · rw [if_neg hh, if_pos ht] at ho
    cases ho
    exact .inr (.inl ⟨ht, rfl⟩)
  by_cases he : arg.bytes = literal "-e"
  · rw [if_neg hh, if_neg ht, if_pos he] at ho
    cases ho
    exact .inr (.inr ⟨he, rfl⟩)
  · rw [if_neg hh, if_neg ht, if_neg he] at ho
    cases ho

/-- What an option does to each of the variables. -/
theorem option_set {arg v : CStr} {o : Opt Settings} {s s' : Settings} (ho : option arg = some o)
    (hset : o.set v s = some s') :
    cstr s'.hostname =
        (if arg.bytes = literal "-h" then v.bytes.take 255 else cstr s.hostname) ∧
      s'.timeout = (if arg.bytes = literal "-t" then toInt32 (strtol v.bytes) else s.timeout) ∧
      s'.marker = (if arg.bytes = literal "-e" then some v else s.marker) := by
  rcases option_cases ho with ⟨harg, hfun⟩ | ⟨harg, hfun⟩ | ⟨harg, hfun⟩
  · rw [hfun] at hset
    cases hset
    rw [harg]
    exact ⟨cstr_setHostname .., rfl, rfl⟩
  · rw [hfun] at hset
    cases hset
    rw [harg]
    exact ⟨rfl, rfl, rfl⟩
  · rw [hfun, setMarker] at hset
    split_ifs at hset
    cases hset
    rw [harg]
    exact ⟨rfl, rfl, rfl⟩

/-- The settings are those of the last pair of each option. -/
theorem setPairs_settings (env : List CStr) {pairs : List (CStr × CStr)} {s : Settings}
    (h : setPairs option pairs (initialSettings env) = some s) :
    cstr s.hostname = hostnameOf env pairs ∧ s.timeout = timeoutOf pairs ∧
      s.marker = markerOf pairs := by
  refine ⟨?_, ?_, ?_⟩
  · exact setPairs_last option (fun s => cstr s.hostname) (literal "-h") (fun v => v.bytes.take 255)
      (fun _ _ _ _ _ ho hset => (option_set ho hset).1) h
  · exact setPairs_last option Settings.timeout (literal "-t") (fun v => toInt32 (strtol v.bytes))
      (fun _ _ _ _ _ ho hset => (option_set ho hset).2.1) h
  · have hlast := setPairs_last option Settings.marker (literal "-e") some
      (fun _ _ _ _ _ ho hset => (option_set ho hset).2.2) h
    rw [hlast, markerOf]
    cases lastValue (literal "-e") pairs <;> rfl

/-- Every pair that is accepted is well formed, -/
theorem isPair_of_set {p : CStr × CStr} {o : Opt Settings} {s s' : Settings}
    (ho : option p.1 = some o) (hset : o.set p.2 s = some s') : IsPair p := by
  rcases option_cases ho with ⟨harg, -⟩ | ⟨harg, -⟩ | ⟨harg, hfun⟩
  · exact .inl harg
  · exact .inr (.inl harg)
  · refine .inr (.inr ⟨harg, fun hempty => ?_⟩)
    rw [hfun, setMarker, if_pos hempty] at hset
    cases hset

/-- and every well formed pair is accepted. -/
theorem IsPair.sets {p : CStr × CStr} (hp : IsPair p) :
    ∃ o, option p.1 = some o ∧ ∀ s, ∃ s', o.set p.2 s = some s' := by
  unfold option
  rcases hp with harg | harg | ⟨harg, hne⟩
  · rw [harg]
    exact ⟨_, rfl, fun s => ⟨_, rfl⟩⟩
  · rw [harg]
    exact ⟨_, rfl, fun s => ⟨_, rfl⟩⟩
  · rw [harg]
    exact ⟨_, rfl, fun s => ⟨_, if_neg hne⟩⟩

/-- No command has the name of an option. -/
theorem option_command {entry : CommandEntry} (hentry : entry ∈ commands) {name : CStr}
    (hname : entry.name = name.bytes) : option name = none := by
  have hall : ∀ entry ∈ commands, entry.name ≠ literal "-h" ∧ entry.name ≠ literal "-t" ∧
      entry.name ≠ literal "-e" := by decide
  obtain ⟨hh, ht, he⟩ := hall entry hentry
  rw [hname] at hh ht he
  rw [option, if_neg hh, if_neg ht, if_neg he]

/-! ## The command and its operands -/

theorem find_command {entry : CommandEntry} (hentry : entry ∈ commands) {name : CStr}
    (hname : entry.name = name.bytes) :
    commands.find? (fun c => c.name = name.bytes) = some entry := by
  have hall : ∀ entry ∈ commands, commands.find? (fun c => c.name = entry.name) = some entry := by
    decide
  rw [← hname]
  exact hall entry hentry

theorem strings_element {operands : List CStr} {n : Nat} (hn : n ≤ operands.length) :
    strings (element operands) n = some (operands.take n) := by
  induction n with
  | zero => rfl
  | succ n ih =>
    rw [strings, ih (by omega), element_lt (by omega), List.take_succ_eq_append_getElem (by omega)]
    rfl

/-- A command that has the operands it needs reads no more than there are. -/
theorem operandsRead_le {entry : CommandEntry} (hentry : entry ∈ commands) {n : Nat}
    (hn : entry.args ≤ n) : operandsRead entry.id n ≤ n := by
  have hall : ∀ entry ∈ commands, operandsRead entry.id 0 ≤ entry.args := by decide
  have hleast := hall entry hentry
  cases hid : entry.id <;> rw [hid] at hleast <;> simp only [operandsRead] at hleast ⊢ <;> omega

/-- The check looks at no more operands than are read. -/
theorem checkOperands_take {id : CommandId} {operands : List CStr}
    (hn : operandsRead id operands.length ≤ operands.length) :
    checkOperands id (operands.take (operandsRead id operands.length)) =
      checkOperands id operands := by
  have hone : 1 ≤ operands.length → ∃ a rest, operands = a :: rest := by
    intro h
    cases operands with
    | nil => cases h
    | cons a rest => exact ⟨a, rest, rfl⟩
  have htwo : 2 ≤ operands.length → ∃ a b rest, operands = a :: b :: rest := by
    intro h
    obtain ⟨a, rest, rfl⟩ := hone (by omega)
    cases rest with
    | nil => exact absurd h (Nat.not_succ_le_self 1)
    | cons b rest => exact ⟨a, b, rest, rfl⟩
  cases id with
  | dumpmem | writemem =>
    obtain ⟨a, b, rest, rfl⟩ := htwo hn
    rfl
  | dumpreg | startvu | stopvu | gsexec =>
    obtain ⟨a, rest, rfl⟩ := hone hn
    rfl
  | execiop | execee => exact congrArg _ (List.take_of_length_le (Nat.le_refl _))
  | _ => rfl

/-- The command `name` with operands that are right for it. -/
structure Right (name : CStr) (operands : List CStr) (entry : CommandEntry) (numbers : Word × Word) :
    Prop where
  command : entry ∈ commands
  name : entry.name = name.bytes
  enough : entry.args ≤ operands.length
  checked : checkOperands entry.id operands = some numbers
  alone : entry.id = .resetcheck → operands = []

/-- `prepare` finds the same command, and the same numbers. -/
theorem prepare_iff {name : CStr} {operands : List CStr} {id : CommandId} {numbers : Word × Word} :
    prepare name operands = some (id, numbers) ↔
      ∃ entry, entry.id = id ∧ Right name operands entry numbers := by
  simp only [prepare, Option.bind_eq_bind, Option.bind_eq_some_iff]
  constructor
  · rintro ⟨entry, hfind, hrest⟩
    by_cases henough : operands.length < entry.args
    · rw [if_pos henough] at hrest
      cases hrest
    rw [if_neg henough] at hrest
    obtain ⟨numbers', hchecked, hrest⟩ := Option.bind_eq_some_iff.mp hrest
    split_ifs at hrest with halone
    cases hrest
    refine ⟨entry, rfl, List.mem_of_find?_eq_some hfind, ?_, by omega, hchecked, fun hid => ?_⟩
    · simpa using List.find?_some hfind
    · exact List.length_eq_zero_iff.mp (by_contra fun hne => halone ⟨hid, hne⟩)
  · rintro ⟨entry, rfl, hright⟩
    have henough := hright.enough
    refine ⟨entry, find_command hright.command hright.name, ?_⟩
    rw [if_neg (by omega), hright.checked]
    refine if_neg fun h => h.2 ?_
    rw [hright.alone h.1]
    rfl

section

variable (executable : Option CStr) (settings : Settings) {name : CStr} {operands : List CStr}

/-- A command with good operands goes on to its branch, -/
theorem findCommand_right {entry : CommandEntry} {numbers : Word × Word}
    (hright : Right name operands entry numbers) :
    findCommand executable settings name operands.length (element operands) =
      if entry.id = .resetcheck then
        .resetcheck executable (cstr settings.hostname)
          (if settings.timeout < 0 then 10 else settings.timeout)
      else .startup (cstr settings.hostname) settings.timeout settings.marker entry.id numbers := by
  have hread := operandsRead_le hright.command hright.enough
  have henough := hright.enough
  unfold findCommand
  rw [find_command hright.command hright.name]
  dsimp only
  rw [if_neg (by omega), Int.toNat_natCast, strings_element hread]
  dsimp only
  rw [checkOperands_take hread, hright.checked]
  dsimp only
  by_cases hid : entry.id = .resetcheck
  · rw [if_pos hid, if_pos hid, hright.alone hid]
    rfl
  · rw [if_neg hid, if_neg hid]

/-- and all else ends with a message. -/
theorem findCommand_wrong (hwrong : ∀ entry numbers, ¬ Right name operands entry numbers) :
    ∃ message usage, findCommand executable settings name operands.length (element operands) =
      .exit EXIT_USAGE message usage := by
  unfold findCommand
  split
  · exact ⟨_, _, rfl⟩
  · rename_i entry hfind
    have hentry : entry ∈ commands := List.mem_of_find?_eq_some hfind
    have hname : entry.name = name.bytes := by simpa using List.find?_some hfind
    by_cases henough : (operands.length : Int) < entry.args
    · rw [if_pos henough]
      exact ⟨_, _, rfl⟩
    · have hread := operandsRead_le hentry (n := operands.length) (by omega)
      rw [if_neg henough, Int.toNat_natCast, strings_element hread]
      dsimp only
      rw [checkOperands_take hread]
      split
      · exact ⟨_, _, rfl⟩
      · rename_i numbers hchecked
        have halone : ¬ (entry.id = .resetcheck → operands = []) := fun halone =>
          hwrong entry numbers ⟨hentry, hname, by omega, hchecked, halone⟩
        obtain ⟨hid, hne⟩ := Classical.not_imp.mp halone
        have hargc : (operands.length : Int) ≠ 0 := fun hzero =>
          hne (List.length_eq_zero_iff.mp (by omega))
        rw [if_pos hid, if_pos hargc]
        exact ⟨_, _, rfl⟩

/-- A command line that gets to `network_startup` has the call of the command function that
`commandSent` says. -/
theorem commandSent_startup {hostname : List Byte} {timeout : Int} {marker : Option CStr}
    {id : CommandId} {numbers : Word × Word}
    (hstartup : findCommand executable settings name operands.length (element operands) =
      .startup hostname timeout marker id numbers) :
    commandSent name operands = some (dispatch id operands numbers.1 numbers.2) := by
  by_cases hwrong : ∀ entry numbers, ¬ Right name operands entry numbers
  · obtain ⟨message, usage, hexit⟩ := findCommand_wrong executable settings hwrong
    rw [hexit] at hstartup
    cases hstartup
  · simp only [not_forall, not_not] at hwrong
    obtain ⟨entry, found, hright⟩ := hwrong
    rw [findCommand_right executable settings hright] at hstartup
    split at hstartup
    · cases hstartup
    · cases hstartup
      unfold commandSent
      rw [prepare_iff.mpr ⟨entry, rfl, hright⟩]
      rfl

end

/-! ## The vector -/

theorem main_line {env argv operands : List CStr} {name : CStr} {settings : Settings}
    (hline : CommandLine option (initialSettings env) argv name operands settings) :
    main env argv = findCommand (element argv 0).join settings name operands.length
      (element operands) := by
  obtain ⟨hlen, k, hloop, hbase⟩ := hline.loop
  have hoperand : (fun j => element argv (k + 1 + j)) = element operands := funext hbase.operand
  unfold main
  rw [if_neg (by omega), hloop]
  dsimp only
  rw [hbase.argc, if_neg (by omega), Nat.add_sub_cancel, hbase.command, hoperand]

theorem main_other {env argv : List CStr} (hline : ∀ name operands settings,
    ¬ CommandLine option (initialSettings env) argv name operands settings) :
    ∃ message usage, main env argv = .exit EXIT_USAGE message usage := by
  unfold main
  dsimp only
  split_ifs with hlen
  · exact ⟨_, _, rfl⟩
  · obtain ⟨program, rest, rfl⟩ : ∃ program rest, argv = program :: rest := by
      cases argv with
      | nil => exact absurd (Nat.zero_lt_two) hlen
      | cons program rest => exact ⟨program, rest, rfl⟩
    rcases optionLoop_cases option program rest (initialSettings env) with
      ⟨name, operands, settings, hcommand⟩ | ⟨message, hloop⟩ | ⟨settings, hloop⟩
    · exact absurd hcommand (hline name operands settings)
    · rw [hloop]
      exact ⟨_, _, rfl⟩
    · rw [hloop]
      dsimp only
      rw [if_pos (by omega)]
      exact ⟨_, _, rfl⟩

/-- A command line of the grammar gets where it should. -/
theorem main_accepted (env : List CStr) {argv operands : List CStr} {executable : CStr}
    {pairs : List (CStr × CStr)} {entry : CommandEntry} {numbers : Word × Word}
    (h : Accepted argv executable pairs entry numbers operands) :
    main env argv = reachedFor env executable pairs entry numbers := by
  obtain ⟨name, rfl, hname⟩ := h.line
  obtain ⟨settings, hset⟩ := setPairs_some option (fun p hp => (h.pairs p hp).sets)
    (initialSettings env)
  obtain ⟨hhost, htimeout, hmarker⟩ := setPairs_settings env hset
  have hright : Right name operands entry numbers :=
    ⟨h.command, hname, h.enough, h.checked, h.alone⟩
  rw [main_line ⟨executable, pairs, rfl, hset, option_command h.command hname⟩,
    findCommand_right _ settings hright, hhost, htimeout, hmarker]
  rfl

theorem accepted_of_right {env argv operands : List CStr} {name : CStr} {settings : Settings}
    {entry : CommandEntry} {numbers : Word × Word}
    (hline : CommandLine option (initialSettings env) argv name operands settings)
    (hright : Right name operands entry numbers) :
    ∃ executable pairs, Accepted argv executable pairs entry numbers operands := by
  obtain ⟨executable, pairs, hargv, hset, -⟩ := hline
  refine ⟨executable, pairs, ⟨name, hargv, hright.name⟩, fun p hp => ?_, hright.command,
    hright.enough, hright.checked, hright.alone⟩
  obtain ⟨o, before, after, ho, hone⟩ := setPairs_each option hset p hp
  exact isPair_of_set ho hone

/-- A vector that is not of the grammar is refused. -/
theorem main_refused (env : List CStr) {argv : List CStr} (h : ¬ ∃ executable pairs entry numbers operands,
    Accepted argv executable pairs entry numbers operands) :
    ∃ message usage, main env argv = .exit EXIT_USAGE message usage := by
  by_cases hline : ∃ name operands settings,
      CommandLine option (initialSettings env) argv name operands settings
  · obtain ⟨name, operands, settings, hline⟩ := hline
    rw [main_line hline]
    refine findCommand_wrong _ settings fun entry numbers hright => h ?_
    obtain ⟨executable, pairs, haccepted⟩ := accepted_of_right hline hright
    exact ⟨executable, pairs, entry, numbers, operands, haccepted⟩
  · exact main_other fun name operands settings hcommand =>
      hline ⟨name, operands, settings, hcommand⟩

theorem operandPassed_lt {entry : CommandEntry} (hentry : entry ∈ commands) {k : Nat}
    (hk : operandPassed entry.id = some k) : k < entry.args := by
  have hall : ∀ entry ∈ commands, ∀ k ∈ operandPassed entry.id, k < entry.args := by decide
  exact hall entry hentry k hk

/-- `main` accepts exactly the grammar, on every vector. -/
theorem grammar_kept (env argv : List CStr) : GrammarKept env argv := by
  have hreached : ∀ {executable pairs entry numbers operands},
      Accepted argv executable pairs entry numbers operands →
      main env argv ≠ .undefined ∧ ∀ code message usage, main env argv ≠ .exit code message usage := by
    intro executable pairs entry numbers operands h
    rw [main_accepted env h, reachedFor]
    split_ifs <;> exact ⟨nofun, nofun⟩
  refine ⟨?_, ⟨?_, ?_⟩, ?_, main_refused env⟩
  · by_cases h : ∃ executable pairs entry numbers operands,
        Accepted argv executable pairs entry numbers operands
    · obtain ⟨executable, pairs, entry, numbers, operands, h⟩ := h
      exact (hreached h).1
    · obtain ⟨message, usage, hexit⟩ := main_refused env h
      rw [hexit]
      exact nofun
  · intro hnot
    by_contra h
    obtain ⟨message, usage, hexit⟩ := main_refused env h
    exact hnot _ _ _ hexit
  · rintro ⟨executable, pairs, entry, numbers, operands, h⟩
    exact (hreached h).2
  · intro executable pairs entry numbers operands h
    exact ⟨main_accepted env h, fun k hk => (operandPassed_lt h.command hk).trans_le h.enough⟩

end Main

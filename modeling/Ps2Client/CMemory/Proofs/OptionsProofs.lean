import Ps2Client.CMemory.Options

/-!
# Proofs: argument vectors
-/

namespace CMemory

/-! ## Elements -/

theorem element_lt {argv : List CStr} {k : Nat} (hk : k < argv.length) :
    element argv k = some (some argv[k]) := by
  rw [element, List.getElem?_append_left (by rw [List.length_map]; exact hk), List.getElem?_map,
    List.getElem?_eq_getElem hk]
  rfl

theorem element_length (argv : List CStr) : element argv argv.length = some none := by
  rw [element, List.getElem?_append_right (by rw [List.length_map]), List.length_map, Nat.sub_self]
  rfl

theorem element_add (pre argv : List CStr) (k : Nat) :
    element (pre ++ argv) (pre.length + k) = element argv k := by
  rw [element, List.map_append, List.append_assoc,
    List.getElem?_append_right (by rw [List.length_map]; omega), List.length_map,
    Nat.add_sub_cancel_left, element]

theorem element_cons_zero (arg : CStr) (argv : List CStr) : element (arg :: argv) 0 = some (some arg) := rfl

theorem element_cons_succ (arg : CStr) (argv : List CStr) (k : Nat) :
    element (arg :: argv) (k + 1) = element argv k := rfl

theorem element_middle (pre : List CStr) (arg : CStr) (rest : List CStr) :
    element (pre ++ arg :: rest) pre.length = some (some arg) := by
  have hfirst := element_add pre (arg :: rest) 0
  rwa [Nat.add_zero, element_cons_zero] at hfirst

/-- Every operand that is read is one of the strings, when there are enough. -/
theorem element_some (argv : List CStr) {k : Nat} (hk : k < argv.length) :
    ∃ s ∈ argv, element argv k = some (some s) :=
  ⟨argv[k], List.getElem_mem hk, element_lt hk⟩

/-! ## The loop -/

variable {α : Type} (option : CStr → Option (Opt α))

theorem optionLoop_null (argv : List CStr) (settings : α) :
    optionLoop option argv argv.length settings = .done argv.length settings := by
  have hnull := element_length argv
  rw [optionLoop]
  split
  · next h => cases hnull.symm.trans h
  · rfl
  · next h => cases hnull.symm.trans h

/-- One turn of the loop, at a string. -/
theorem optionLoop_string {argv : List CStr} {loop0 : Nat} {arg : CStr}
    (harg : element argv loop0 = some (some arg)) (settings : α) :
    optionLoop option argv loop0 settings =
      match option arg with
      | none => .done loop0 settings
      | some o =>
        if argv.length = loop0 + 1 then .refused o.missing else
        match element argv (loop0 + 1) with
        | some (some value) =>
          match o.set value settings with
          | some settings => optionLoop option argv (loop0 + 2) settings
          | none => .refused o.missing
        | some none | none => .undefined := by
  rw [optionLoop]
  split
  · next h => cases harg.symm.trans h
  · next h => cases harg.symm.trans h
  · next h =>
    cases harg.symm.trans h
    rfl

theorem optionLoop_other (pre rest : List CStr) {arg : CStr} (settings : α)
    (harg : option arg = none) :
    optionLoop option (pre ++ arg :: rest) pre.length settings = .done pre.length settings := by
  rw [optionLoop_string option (element_middle pre arg rest), harg]

theorem optionLoop_last (pre : List CStr) {arg : CStr} {o : Opt α} (settings : α)
    (harg : option arg = some o) :
    optionLoop option (pre ++ [arg]) pre.length settings = .refused o.missing := by
  rw [optionLoop_string option (element_middle pre arg []), harg]
  exact if_pos (List.length_append ..)

theorem optionLoop_pair (pre rest : List CStr) {arg : CStr} {o : Opt α} (value : CStr) (settings : α)
    (harg : option arg = some o) :
    optionLoop option (pre ++ arg :: value :: rest) pre.length settings =
      match o.set value settings with
      | some settings => optionLoop option (pre ++ arg :: value :: rest) (pre.length + 2) settings
      | none => .refused o.missing := by
  have hvalue : element (pre ++ arg :: value :: rest) (pre.length + 1) = some (some value) := by
    rw [element_add, element_cons_succ, element_cons_zero]
  have hlen : (pre ++ arg :: value :: rest).length ≠ pre.length + 1 := by
    rw [List.length_append, List.length_cons, List.length_cons]
    omega
  rw [optionLoop_string option (element_middle pre arg (value :: rest)), harg]
  cases hset : o.set value settings with
  | none => simp only [if_neg hlen, hvalue, hset]
  | some settings => simp only [if_neg hlen, hvalue, hset]

/-- The loop takes the options off what is left of the vector. -/
theorem optionLoop_eq (pre argv : List CStr) (settings : α) :
    optionLoop option (pre ++ argv) pre.length settings =
      match takeOptions option argv settings with
      | .ok (rest, settings) => .done (pre.length + argv.length - rest.length) settings
      | .error message => .refused message := by
  induction argv, settings using takeOptions.induct option generalizing pre with
  | case1 settings =>
    rw [List.append_nil, takeOptions, optionLoop_null]
    rfl
  | case2 arg settings harg =>
    rw [takeOptions, harg, optionLoop_other option pre [] settings harg]
    dsimp only
    rw [Nat.add_sub_cancel]
  | case3 arg settings o harg =>
    rw [takeOptions, harg, optionLoop_last option pre settings harg]
  | case4 arg value rest settings harg =>
    rw [takeOptions, harg, optionLoop_other option pre _ settings harg]
    dsimp only
    rw [Nat.add_sub_cancel]
  | case5 arg value rest settings o harg settings' hset ih =>
    rw [takeOptions, harg, optionLoop_pair option pre rest value settings harg, hset]
    dsimp only
    rw [hset]
    have hrest := ih (pre ++ [arg, value])
    rw [List.append_assoc, List.length_append] at hrest
    have hlen : pre.length + (arg :: value :: rest).length =
        pre.length + [arg, value].length + rest.length := by
      simp only [List.length_cons, List.length_nil]
      omega
    rw [hlen]
    exact hrest
  | case6 arg value rest settings o harg hset =>
    rw [takeOptions, harg, optionLoop_pair option pre rest value settings harg, hset]
    dsimp only
    rw [hset]

/-! ## Pairs -/

/-- What is taken off are pairs of options and values. -/
theorem takeOptions_ok {argv rest : List CStr} {settings settings' : α}
    (h : takeOptions option argv settings = .ok (rest, settings')) :
    ∃ pairs, argv = flatPairs pairs ++ rest ∧ setPairs option pairs settings = some settings' ∧
      ∀ arg ∈ rest.head?, option arg = none := by
  induction argv, settings using takeOptions.induct option with
  | case1 settings =>
    cases h
    exact ⟨[], rfl, rfl, nofun⟩
  | case2 arg settings harg =>
    rw [takeOptions, harg] at h
    cases h
    exact ⟨[], rfl, rfl, fun _ hmem => by cases hmem; exact harg⟩
  | case3 arg settings o harg =>
    rw [takeOptions, harg] at h
    cases h
  | case4 arg value rest settings harg =>
    rw [takeOptions, harg] at h
    cases h
    exact ⟨[], rfl, rfl, fun _ hmem => by cases hmem; exact harg⟩
  | case5 arg value rest settings o harg settings' hset ih =>
    rw [takeOptions, harg] at h
    dsimp only at h
    rw [hset] at h
    obtain ⟨pairs, rfl, hpairs, hhead⟩ := ih h
    refine ⟨(arg, value) :: pairs, rfl, ?_, hhead⟩
    simp [setPairs, harg, hset, hpairs]
  | case6 arg value rest settings o harg hset =>
    rw [takeOptions, harg] at h
    dsimp only at h
    rw [hset] at h
    cases h

/-- Pairs are taken off up to the first string that is not an option. -/
theorem takeOptions_pairs {pairs : List (CStr × CStr)} {settings settings' : α} {arg : CStr}
    (rest : List CStr) (hpairs : setPairs option pairs settings = some settings')
    (harg : option arg = none) :
    takeOptions option (flatPairs pairs ++ arg :: rest) settings = .ok (arg :: rest, settings') := by
  induction pairs generalizing settings with
  | nil =>
    cases hpairs
    cases rest <;> simp [flatPairs, takeOptions, harg]
  | cons p pairs ih =>
    simp only [setPairs, Option.bind_eq_bind, Option.bind_eq_some_iff] at hpairs
    obtain ⟨o, ho, settings₁, hset, hpairs⟩ := hpairs
    show takeOptions option (p.1 :: p.2 :: (flatPairs pairs ++ arg :: rest)) settings = _
    rw [takeOptions, ho]
    dsimp only
    rw [hset]
    exact ih hpairs

/-- Pairs whose values are always right can be set. -/
theorem setPairs_some {pairs : List (CStr × CStr)}
    (h : ∀ p ∈ pairs, ∃ o, option p.1 = some o ∧ ∀ settings, ∃ settings',
      o.set p.2 settings = some settings') (settings : α) :
    ∃ settings', setPairs option pairs settings = some settings' := by
  induction pairs generalizing settings with
  | nil => exact ⟨settings, rfl⟩
  | cons p pairs ih =>
    obtain ⟨o, ho, hset⟩ := h p List.mem_cons_self
    obtain ⟨settings₁, hset⟩ := hset settings
    obtain ⟨settings', hrest⟩ := ih (fun q hq => h q (List.mem_cons_of_mem _ hq)) settings₁
    refine ⟨settings', ?_⟩
    rw [setPairs, ho, Option.bind_eq_bind, Option.bind_some, hset]
    exact hrest

theorem setPairs_each {pairs : List (CStr × CStr)} {settings settings' : α}
    (h : setPairs option pairs settings = some settings') :
    ∀ p ∈ pairs, ∃ o before after, option p.1 = some o ∧ o.set p.2 before = some after := by
  induction pairs generalizing settings with
  | nil => nofun
  | cons p pairs ih =>
    simp only [setPairs, Option.bind_eq_bind, Option.bind_eq_some_iff] at h
    obtain ⟨o, ho, settings₁, hset, hrest⟩ := h
    intro q hq
    rcases List.mem_cons.mp hq with rfl | hq
    · exact ⟨o, settings, settings₁, ho, hset⟩
    · exact ih hrest q hq

theorem lastValue_cons (key : List Byte) (p : CStr × CStr) (pairs : List (CStr × CStr)) :
    lastValue key (p :: pairs) =
      (lastValue key pairs).or (if p.1.bytes = key then some p.2 else none) := by
  rw [lastValue, List.reverse_cons, List.find?_append, lastValue]
  cases pairs.reverse.find? fun p => p.1.bytes = key with
  | some q => rfl
  | none =>
    rw [Option.none_or, Option.map_none, Option.none_or, List.find?_cons]
    split_ifs with hkey <;> simp [hkey]

/-- What only the option `key` sets is what its last pair sets it to. -/
theorem setPairs_last {β : Type} (part : α → β) (key : List Byte) (value : CStr → β)
    (hstep : ∀ arg o v settings settings', option arg = some o → o.set v settings = some settings' →
      part settings' = if arg.bytes = key then value v else part settings)
    {pairs : List (CStr × CStr)} {settings settings' : α}
    (h : setPairs option pairs settings = some settings') :
    part settings' = ((lastValue key pairs).map value).getD (part settings) := by
  induction pairs generalizing settings with
  | nil =>
    cases h
    rfl
  | cons p pairs ih =>
    simp only [setPairs, Option.bind_eq_bind, Option.bind_eq_some_iff] at h
    obtain ⟨o, ho, settings₁, hset, hrest⟩ := h
    rw [ih hrest, hstep p.1 o p.2 settings settings₁ ho hset, lastValue_cons]
    cases lastValue key pairs with
    | some v => rfl
    | none => split_ifs <;> rfl

/-! ## A command line -/

/-- What `loop0++; argc -= loop0; argv += loop0;` makes of a vector when the loop has stopped at the
element `k`: `argv[-1]` is the command, and the operands come after it. -/
structure Rebased (argv : List CStr) (k : Nat) (name : CStr) (operands : List CStr) : Prop where
  command : element argv k = some (some name)
  operand : ∀ j, element argv (k + 1 + j) = element operands j
  argc : (argv.length : Int) - (k + 1 : Nat) = operands.length

theorem rebased_append (pre : List CStr) (name : CStr) (operands : List CStr) :
    Rebased (pre ++ name :: operands) pre.length name operands where
  command := element_add pre (name :: operands) 0
  operand j := by
    rw [Nat.add_assoc, Nat.add_comm 1 j]
    exact element_add pre (name :: operands) (j + 1)
  argc := by
    simp only [List.length_append, List.length_cons]
    omega

theorem CommandLine.loop {settings settings' : α} {argv operands : List CStr} {name : CStr}
    (hline : CommandLine option settings argv name operands settings') :
    2 ≤ argv.length ∧ ∃ k, optionLoop option argv 1 settings = .done k settings' ∧
      Rebased argv k name operands := by
  obtain ⟨program, pairs, rfl, hset, hname⟩ := hline
  have hloop := optionLoop_eq option [program] (flatPairs pairs ++ name :: operands) settings
  rw [takeOptions_pairs option operands hset hname] at hloop
  have hdone : [program].length + (flatPairs pairs ++ name :: operands).length -
      (name :: operands).length = (program :: flatPairs pairs).length := by
    simp only [List.length_append, List.length_cons, List.length_nil]
    omega
  dsimp only at hloop
  rw [hdone] at hloop
  refine ⟨?_, _, hloop, rebased_append (program :: flatPairs pairs) name operands⟩
  simp only [List.length_append, List.length_cons]
  omega

/-- Without a command the loop ends with an error, or at the null. -/
theorem optionLoop_cases (program : CStr) (argv : List CStr) (settings : α) :
    (∃ name operands settings',
        CommandLine option settings (program :: argv) name operands settings') ∨
      (∃ message, optionLoop option (program :: argv) 1 settings = .refused message) ∨
      ∃ settings', optionLoop option (program :: argv) 1 settings =
        .done (program :: argv).length settings' := by
  have hloop := optionLoop_eq option [program] argv settings
  cases htake : takeOptions option argv settings with
  | error message =>
    rw [htake] at hloop
    exact .inr (.inl ⟨message, hloop⟩)
  | ok taken =>
    obtain ⟨rest, settings'⟩ := taken
    rw [htake] at hloop
    obtain ⟨pairs, hargv, hset, hhead⟩ := takeOptions_ok option htake
    cases rest with
    | nil =>
      refine .inr (.inr ⟨settings', hloop.trans ?_⟩)
      simp [Nat.add_comm]
    | cons name operands =>
      exact .inl ⟨name, operands, settings', program, pairs, congrArg _ hargv, hset, hhead name rfl⟩

end CMemory

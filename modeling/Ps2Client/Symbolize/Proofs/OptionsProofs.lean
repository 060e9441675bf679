import Ps2Client.Symbolize.Options

/-!
# Proofs: the command line of ps2symbolize

An item is taken exactly when it fits what was set before it.
-/

namespace Symbolize

open CMemory

variable {o o' : Options} {item : Argument} {items : List Argument} {args rest : List CStr} {arg value : CStr}

/-! ## The loop -/

/-- An option whose value is good is taken, -/
theorem parse_value {set : CStr → Options → Option Options} (hset : valueOption arg = some set)
    (hvalue : set value o = some o') : parse (arg :: value :: rest) o = parse rest o' := by
  conv_lhs => unfold parse
  simp only [hset, hvalue]

/-- one whose value is bad ends in the usage, -/
theorem parse_refused {set : CStr → Options → Option Options} (hset : valueOption arg = some set)
    (hvalue : set value o = none) : parse (arg :: value :: rest) o = .usage := by
  conv_lhs => unfold parse
  simp only [hset, hvalue]

/-- and so does one without a value. -/
theorem parse_missing {set : CStr → Options → Option Options} (hset : valueOption arg = some set) :
    parse [arg] o = .usage := by
  conv_lhs => unfold parse
  simp only [hset]

/-- What is no option with a value is `--help`, the log, or an error. -/
theorem parse_plain (harg : valueOption arg = none) : parse (arg :: rest) o =
    if arg.bytes = literal "--help" then .help
    else if o.logPath = none ∧ IsPath arg then parse rest { o with logPath := some arg }
    else .usage := by
  simp only [parse, harg]

/-! ## One item -/

/-- What the loop makes of an item. -/
def Argument.apply (o : Options) : Argument → Options
  | .ee elf => { o with config := { o.config with eeElf := some elf } }
  | .eeTool path => { o with config := { o.config with eeTool := path } }
  | .iopTool path => { o with config := { o.config with iopTool := path } }
  | .iop name elf => { o with config := { o.config with modules := o.config.modules ++ [⟨name, some elf⟩] } }
  | .log path => { o with logPath := some path }

/-- There is room for the item. -/
def Argument.Fits (o : Options) (item : Argument) : Prop :=
  item.Valid ∧ (item.module? ≠ none → o.config.modules.length ≠ 64) ∧
    (item.log? ≠ none → o.logPath = none)

theorem ofBuffer_eq (s : CStr) {bytes : List Byte} (hbytes : bytes = s.bytes) :
    CStr.ofBuffer bytes = s := by
  subst hbytes
  obtain ⟨bytes, noNull⟩ := s
  unfold CStr.ofBuffer
  congr
  exact cstr_eq_self noNull

theorem ofBuffer_bytes {bytes : List Byte} (hbytes : 0 ∉ bytes) :
    (CStr.ofBuffer bytes).bytes = bytes := cstr_eq_self hbytes

/-- `NAME=ELF` as it stands on the command line. -/
theorem pair_bytes (name elf : CStr) :
    (CStr.ofBuffer (name.bytes ++ equals :: elf.bytes)).bytes = name.bytes ++ equals :: elf.bytes := by
  refine ofBuffer_bytes ?_
  rw [List.mem_append, List.mem_cons]
  rintro (hname | hequals | helf)
  · exact name.noNull hname
  · exact absurd hequals (by decide)
  · exact elf.noNull helf

/-- The name ends at the first `=`. -/
theorem takeWhile_pair {name : List Byte} (hname : equals ∉ name) (elf : List Byte) :
    (name ++ equals :: elf).takeWhile (· ≠ equals) = name := by
  rw [List.takeWhile_append_of_pos, List.takeWhile_cons_of_neg, List.append_nil]
  · simp
  · intro b hb
    exact decide_eq_true fun heq => hname (heq ▸ hb)

/-- `NAME=ELF` gives the module, while the table has room. -/
theorem addModule_pair {name elf : CStr} (hvalid : (Argument.iop name elf).Valid)
    (hroom : o.config.modules.length ≠ 64) :
    addModule (.ofBuffer (name.bytes ++ equals :: elf.bytes)) o = some ((Argument.iop name elf).apply o) := by
  obtain ⟨hnonempty, hlong, hequals, helf⟩ := hvalid
  have hmem : (name.bytes ++ equals :: elf.bytes).contains equals = true :=
    List.contains_iff_mem.mpr (List.mem_append_right _ List.mem_cons_self)
  have hdrop : (name.bytes ++ equals :: elf.bytes).drop (name.bytes.length + 1) = elf.bytes := by
    rw [← List.drop_drop, List.drop_left]
    rfl
  have hlength : ¬ (name.bytes.length = 0 ∨ 128 ≤ name.bytes.length ∨ elf.bytes = [] ∨
      o.config.modules.length = 64) := by
    rintro (hzero | hlarge | hempty | hfull)
    · exact hnonempty (List.length_eq_zero_iff.mp hzero)
    · exact absurd hlarge (Nat.not_le.mpr (Nat.lt_succ_of_le hlong))
    · exact helf hempty
    · exact hroom hfull
  unfold addModule
  dsimp only
  rw [pair_bytes, if_pos hmem, takeWhile_pair hequals, hdrop, if_neg hlength, List.take_left,
    ofBuffer_eq name rfl, ofBuffer_eq elf rfl]
  rfl

/-- Every value that is taken is of this form. -/
theorem addModule_item (hvalue : addModule value o = some o') :
    ∃ name elf : CStr, value.bytes = name.bytes ++ equals :: elf.bytes ∧
      (Argument.iop name elf).Fits o := by
  unfold addModule at hvalue
  dsimp only at hvalue
  by_cases hmem : value.bytes.contains equals = true
  · obtain ⟨name, elf, hpair, hequals⟩ := List.eq_append_cons_of_mem (List.contains_iff_mem.mp hmem)
    have hname : 0 ∉ name := by
      intro hzero
      refine value.noNull ?_
      rw [hpair]
      exact List.mem_append_left _ hzero
    have helf : 0 ∉ elf := by
      intro hzero
      refine value.noNull ?_
      rw [hpair]
      exact List.mem_append_right _ (List.mem_cons_of_mem _ hzero)
    have hdrop : value.bytes.drop (name.length + 1) = elf := by
      rw [hpair, ← List.drop_drop, List.drop_left]
      rfl
    have htake : value.bytes.takeWhile (· ≠ equals) = name := by
      rw [hpair]
      exact takeWhile_pair hequals elf
    rw [if_pos hmem, htake, hdrop] at hvalue
    split at hvalue
    · cases hvalue
    rename_i hfine
    push Not at hfine
    obtain ⟨hnonempty, hlong, hsome, hroom⟩ := hfine
    refine ⟨⟨name, hname⟩, ⟨elf, helf⟩, hpair, ⟨?_, ?_, hequals, hsome⟩, fun _ => hroom, nofun⟩
    · exact fun hnil => hnonempty (List.length_eq_zero_iff.mpr hnil)
    · exact Nat.le_of_lt_succ hlong
  · rw [if_neg hmem, if_pos (.inl rfl)] at hvalue
    cases hvalue

/-- A path is no option. -/
theorem valueOption_path (hpath : IsPath arg) : valueOption arg = none ∧ arg.bytes ≠ literal "--help" := by
  have hno : ∀ s : List Byte, s.head? = some (ascii '-') → s ≠ literal "-" → arg.bytes ≠ s := by
    rintro s hhead hdash rfl
    rcases hpath with hne | heq
    · exact hne hhead
    · exact hdash heq
  refine ⟨?_, hno _ rfl (by decide)⟩
  unfold valueOption
  rw [if_neg (hno _ rfl (by decide)), if_neg (hno _ rfl (by decide)), if_neg (hno _ rfl (by decide)),
    if_neg (hno _ rfl (by decide))]

/-- An item that fits is taken. -/
theorem parse_item (hfits : item.Fits o) : parse (item.args ++ rest) o = parse rest (item.apply o) := by
  obtain ⟨hvalid, hroom, hlog⟩ := hfits
  cases item with
  | ee elf => exact parse_value rfl rfl
  | eeTool path => exact parse_value rfl rfl
  | iopTool path => exact parse_value rfl rfl
  | iop name elf => exact parse_value rfl (addModule_pair hvalid (hroom nofun))
  | log path =>
    obtain ⟨hnone, hhelp⟩ := valueOption_path hvalid
    exact (parse_plain hnone).trans ((if_neg hhelp).trans (if_pos ⟨hlog nofun, hvalid⟩))

/-- An option that is set is an item. -/
theorem item_of_set {set : CStr → Options → Option Options} (hset : valueOption arg = some set)
    (hvalue : set value o = some o') :
    ∃ item : Argument, item.args = [arg, value] ∧ item.Fits o ∧ item.apply o = o' := by
  unfold valueOption at hset
  split at hset
  · rename_i harg
    cases hset
    cases hvalue
    exact ⟨.ee value, by rw [Argument.args, ofBuffer_eq arg harg.symm], ⟨trivial, nofun, nofun⟩, rfl⟩
  split at hset
  · rename_i harg
    cases hset
    cases hvalue
    exact ⟨.eeTool value, by rw [Argument.args, ofBuffer_eq arg harg.symm], ⟨trivial, nofun, nofun⟩, rfl⟩
  split at hset
  · rename_i harg
    cases hset
    cases hvalue
    exact ⟨.iopTool value, by rw [Argument.args, ofBuffer_eq arg harg.symm], ⟨trivial, nofun, nofun⟩, rfl⟩
  split at hset
  · rename_i harg
    cases hset
    obtain ⟨name, elf, hpair, hfits⟩ := addModule_item hvalue
    have happly := addModule_pair (o := o) hfits.1 (hfits.2.1 nofun)
    rw [ofBuffer_eq value hpair.symm, hvalue] at happly
    refine ⟨.iop name elf, ?_, hfits, (Option.some.inj happly).symm⟩
    rw [Argument.args, ofBuffer_eq arg harg.symm, ofBuffer_eq value hpair.symm]
  · cases hset

/-! ## All of them -/

/-- The items fit one after the other. -/
def Accepts : Options → List Argument → Prop
  | _, [] => True
  | o, item :: items => item.Fits o ∧ Accepts (item.apply o) items

/-- So are all items of a list that is accepted. -/
theorem parse_items (haccepts : Accepts o items) :
    parse (items.flatMap Argument.args ++ rest) o = parse rest (items.foldl Argument.apply o) := by
  induction items generalizing o with
  | nil => rfl
  | cons item items ih =>
    rw [List.flatMap_cons, List.append_assoc, parse_item haccepts.1]
    exact ih haccepts.2

/-- The loop takes `items`, up to the end, to `--help`, or to a usage error in `rest`. -/
def StopsAt (items : List Argument) (rest : List CStr) (o : Options) : Prop :=
  rest = [] ∨ (∃ more, rest = .ofBuffer (literal "--help") :: more) ∨
    parse rest (items.foldl Argument.apply o) = .usage

def Stops (args : List CStr) (o : Options) : Prop :=
  ∃ items rest, args = items.flatMap Argument.args ++ rest ∧ Accepts o items ∧ StopsAt items rest o

theorem Stops.cons (hfits : item.Fits o) (hstops : Stops rest (item.apply o)) :
    Stops (item.args ++ rest) o := by
  obtain ⟨items, more, rfl, haccepts, hend⟩ := hstops
  refine ⟨item :: items, more, ?_, ⟨hfits, haccepts⟩, hend⟩
  rw [List.flatMap_cons, List.append_assoc]

theorem stops_at (hend : StopsAt [] args o) : Stops args o := ⟨[], args, rfl, trivial, hend⟩

/-- Every command line is a list of items that fit, up to where the parser stops. -/
theorem parse_stops (args : List CStr) (o : Options) : Stops args o := by
  fun_induction parse args o with
  | case1 o hnothing => exact stops_at (.inl rfl)
  | case2 o hsomething => exact stops_at (.inl rfl)
  | case3 arg o set hset => exact stops_at (.inr (.inr (parse_missing hset)))
  | case4 arg o set value rest hset hvalue => exact stops_at (.inr (.inr (parse_refused hset hvalue)))
  | case5 arg o set value rest hset o' hvalue ih =>
    obtain ⟨item, hargs, hfits, rfl⟩ := item_of_set hset hvalue
    have hstops := Stops.cons hfits ih
    rw [hargs] at hstops
    exact hstops
  | case6 arg o rest harg hhelp =>
    exact stops_at (.inr (.inl ⟨rest, by rw [ofBuffer_eq arg hhelp.symm]⟩))
  | case7 arg o rest harg hhelp hpath ih =>
    have hfits : (Argument.log arg).Fits o := ⟨hpath.2, fun hmodule => absurd rfl hmodule, fun _ => hpath.1⟩
    exact Stops.cons hfits ih
  | case8 arg o rest harg hhelp hpath =>
    refine stops_at (.inr (.inr ?_))
    exact (parse_plain harg).trans ((if_neg hhelp).trans (if_neg hpath))

/-! ## What they mean -/

/-- The values of `items` come after what was set before. -/
theorem foldl_apply (items : List Argument) (o : Options) : items.foldl Argument.apply o =
    { config :=
        { eeElf := (items.filterMap Argument.ee?).getLast?.or o.config.eeElf
          eeTool := (items.filterMap Argument.eeTool?).getLast?.getD o.config.eeTool
          iopTool := (items.filterMap Argument.iopTool?).getLast?.getD o.config.iopTool
          modules := o.config.modules ++ items.filterMap Argument.module? }
      logPath := (items.filterMap Argument.log?).getLast?.or o.logPath } := by
  induction items generalizing o with
  | nil => simp
  | cons item items ih =>
    rw [List.foldl_cons, ih]
    cases item <;> simp [Argument.apply, Argument.ee?, Argument.eeTool?, Argument.iopTool?, Argument.module?, Argument.log?,
      List.filterMap_cons, List.getLast?_cons]

/-- What the parser has collected is the meaning of the items. -/
theorem foldl_initial (items : List Argument) : items.foldl Argument.apply .initial = meaning items := by
  rw [foldl_apply]
  simp [meaning, Options.initial]

theorem length_filterMap_cons {α β : Type} (f : α → Option β) (a : α) (as : List α) :
    ((a :: as).filterMap f).length = (f a).toList.length + (as.filterMap f).length := by
  rw [List.filterMap_cons]
  cases f a with
  | none => exact (Nat.zero_add _).symm
  | some b => exact Nat.add_comm _ 1

theorem length_toList_of_ne_none {β : Type} {b : Option β} (hb : b ≠ none) : b.toList.length = 1 := by
  obtain ⟨b, rfl⟩ := Option.ne_none_iff_exists'.mp hb
  rfl

/-- An item adds a module, or none. -/
theorem apply_modules (item : Argument) (o : Options) :
    (item.apply o).config.modules.length = o.config.modules.length + item.module?.toList.length := by
  cases item with
  | iop name elf => exact List.length_append
  | ee _ | eeTool _ | iopTool _ | log _ => rfl

/-- An item gives the log, or none. -/
theorem apply_log (hfits : item.Fits o) :
    (item.apply o).logPath.toList.length = o.logPath.toList.length + item.log?.toList.length := by
  cases item with
  | log path =>
    have hfirst : o.logPath = none := hfits.2.2 nofun
    rw [hfirst]
    rfl
  | ee _ | eeTool _ | iopTool _ | iop _ _ => rfl

/-- Items that fit never fill the table of modules beyond its 64 entries. -/
theorem fits_room (hfits : item.Fits o) (hroom : o.config.modules.length ≤ 64) :
    (item.apply o).config.modules.length ≤ 64 := by
  rw [apply_modules]
  by_cases hmodule : item.module? = none
  · rw [hmodule]
    exact hroom
  · have hfull := hfits.2.1 hmodule
    have hone := length_toList_of_ne_none hmodule
    omega

/-- Items fit one after the other when there are not too many of them. -/
theorem accepts_iff (hroom : o.config.modules.length ≤ 64) : Accepts o items ↔
    (∀ item ∈ items, item.Valid) ∧ o.config.modules.length + (items.filterMap Argument.module?).length ≤ 64 ∧
      o.logPath.toList.length + (items.filterMap Argument.log?).length ≤ 1 := by
  induction items generalizing o with
  | nil =>
    have hlog : o.logPath.toList.length ≤ 1 := by cases o.logPath <;> simp
    exact iff_of_true trivial ⟨nofun, hroom, hlog⟩
  | cons item items ih =>
    rw [List.forall_mem_cons, length_filterMap_cons, length_filterMap_cons]
    by_cases hfits : item.Fits o
    · rw [Accepts, ih (fits_room hfits hroom), apply_modules, apply_log hfits, Nat.add_assoc, Nat.add_assoc]
      constructor
      · rintro ⟨-, hvalid, hmodules, hlog⟩
        exact ⟨⟨hfits.1, hvalid⟩, hmodules, hlog⟩
      · rintro ⟨⟨-, hvalid⟩, hmodules, hlog⟩
        exact ⟨hfits, hvalid, hmodules, hlog⟩
    · refine iff_of_false (fun haccepts => hfits haccepts.1) ?_
      rintro ⟨⟨hvalid, -⟩, hmodules, hlog⟩
      refine hfits ⟨hvalid, fun hmodule => ?_, fun hpath => ?_⟩
      · rw [length_toList_of_ne_none hmodule] at hmodules
        omega
      · rw [length_toList_of_ne_none hpath] at hlog
        have hempty : o.logPath.toList.length = 0 := by omega
        exact Option.toList_eq_nil_iff.mp (List.length_eq_zero_iff.mp hempty)

/-- The grammar is what the parser takes from its start. -/
theorem accepts_initial : Accepts .initial items ↔ Acceptable items := by
  rw [accepts_iff (o := .initial) (Nat.zero_le 64)]
  simp only [Options.initial, List.length_nil, Nat.zero_add, Option.toList_none]
  constructor
  · rintro ⟨hvalid, hmodules, hlog⟩
    exact ⟨hvalid, hmodules, hlog⟩
  · rintro ⟨hvalid, hmodules, hlog⟩
    exact ⟨hvalid, hmodules, hlog⟩

/-- At the end, options that can find a symbol run the program; -/
theorem parse_useful (huseful : o.Useful) : parse [] o = .run o := by
  refine if_neg ?_
  rintro ⟨hee, hmodules⟩
  rcases huseful with hsome | hsome
  · exact hsome hee
  · exact hsome hmodules

/-- all others end in the usage. -/
theorem parse_useless (huseless : ¬ o.Useful) : parse [] o = .usage :=
  if_pos ⟨not_not.mp fun hee => huseless (.inl hee), not_not.mp fun hmodules => huseless (.inr hmodules)⟩

theorem parse_help : parse (.ofBuffer (literal "--help") :: rest) o = .help := rfl

/-- The arguments are taken exactly when they are a command line, for what it means; the help is printed
exactly when a command line is followed by `--help`. -/
theorem parse_accepts (args : List CStr) :
    (∀ o, parse args .initial = .run o ↔ ∃ items, Acceptable items ∧ args = items.flatMap Argument.args ∧
      (meaning items).Useful ∧ o = meaning items) ∧
    (parse args .initial = .help ↔ ∃ items rest, Acceptable items ∧
      args = items.flatMap Argument.args ++ .ofBuffer (literal "--help") :: rest) := by
  have htaken : ∀ {items rest}, Acceptable items → parse (items.flatMap Argument.args ++ rest) .initial =
      parse rest (meaning items) := by
    intro items rest hacceptable
    rw [parse_items (accepts_initial.mpr hacceptable), foldl_initial]
  obtain ⟨items, rest, rfl, haccepts, hend⟩ := parse_stops args .initial
  have hacceptable := accepts_initial.mp haccepts
  unfold StopsAt at hend
  rw [foldl_initial] at hend
  refine ⟨?_, ?_⟩
  · intro o
    constructor
    · intro hrun
      rw [htaken hacceptable] at hrun
      rcases hend with rfl | ⟨more, rfl⟩ | husage
      · by_cases huseful : (meaning items).Useful
        · rw [parse_useful huseful] at hrun
          exact ⟨items, hacceptable, List.append_nil _, huseful, (Parsed.run.inj hrun).symm⟩
        · rw [parse_useless huseful] at hrun
          cases hrun
      · cases hrun
      · rw [husage] at hrun
        cases hrun
    · rintro ⟨items', hacceptable', hargs, huseful, rfl⟩
      rw [hargs, ← List.append_nil (items'.flatMap Argument.args), htaken hacceptable', parse_useful huseful]
  · constructor
    · intro hhelp
      rw [htaken hacceptable] at hhelp
      rcases hend with rfl | ⟨more, rfl⟩ | husage
      · by_cases huseful : (meaning items).Useful
        · rw [parse_useful huseful] at hhelp
          cases hhelp
        · rw [parse_useless huseful] at hhelp
          cases hhelp
      · exact ⟨items, more, hacceptable, rfl⟩
      · rw [husage] at hhelp
        cases hhelp
    · rintro ⟨items', more, hacceptable', hargs⟩
      rw [hargs, htaken hacceptable', parse_help]

end Symbolize

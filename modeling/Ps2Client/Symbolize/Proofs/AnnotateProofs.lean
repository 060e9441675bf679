import Ps2Client.CMemory.Proofs.CStringProofs
import Ps2Client.CMemory.Proofs.ScanProofs
import Ps2Client.Symbolize.Annotate

/-!
# Proofs: `ps2symbolize` follows the episodes of a log

A line that is read in an episode either has the address the episode waits for, and then it makes the
call of the episode, or leaves the episode as it is.
-/

namespace Symbolize

open CMemory

/-! ## Names of modules -/

/-- The comparison of names ignores the case of ASCII letters, and nothing else. -/
theorem equalsIgnoreCase_iff (as bs : List Byte) :
    equalsIgnoreCase as bs = true ↔ as.map tolower = bs.map tolower := by
  induction as generalizing bs with
  | nil =>
    cases bs with
    | nil => exact iff_of_true rfl rfl
    | cons b bs => exact iff_of_false (by simp [equalsIgnoreCase]) (by simp)
  | cons a as ih =>
    cases bs with
    | nil => exact iff_of_false (by simp [equalsIgnoreCase]) (by simp)
    | cons b bs =>
      rw [equalsIgnoreCase, List.map_cons, List.map_cons, List.cons.injEq]
      split_ifs with hne
      · exact iff_of_false (by simp) fun h => hne h.1
      · rw [ih]
        exact ⟨fun h => ⟨not_not.mp hne, h⟩, And.right⟩

/-- The loop finds the first module of that name. -/
theorem findElf_eq (name : List Byte) (ms : List ModuleMap) :
    findElf name ms =
      (ms.find? fun m => name.map tolower = m.name.bytes.map tolower).bind ModuleMap.elf := by
  induction ms with
  | nil => rfl
  | cons m ms ih =>
    rw [findElf, List.find?_cons]
    by_cases h : name.map tolower = m.name.bytes.map tolower
    · rw [if_pos ((equalsIgnoreCase_iff _ _).mpr h), decide_eq_true h]
      rfl
    · rw [if_neg fun heq => h ((equalsIgnoreCase_iff _ _).mp heq), decide_eq_false h]
      exact ih

/-! ## Addresses -/

/-- Behind `EPC`, the format reads one number. -/
theorem sscanf_eeFormat (rest : List Byte) :
    sscanf eeFormat (epcWord ++ rest) = ((scanHex rest).map fun r => .number r.1).toList := by
  have hword : epcWord ++ rest = literal "EPC" ++ (ascii ' ' :: rest) := rfl
  rw [eeFormat, hword, sscanf_characters, after?_append, ← sscanf_blank_hex]
  rfl

/-- A line with an address of the EE has one number behind its first `EPC`, -/
theorem eeAddress_some {line : CStr} {pc : BitVec 32} (h : eeAddress line = some pc) :
    ∃ epc, strstr line.bytes epcWord = some epc ∧ sscanf eeFormat epc = [.number pc] := by
  rw [eeAddress] at h
  obtain ⟨epc, hepc, h⟩ := Option.bind_eq_some_iff.mp h
  obtain ⟨⟨n, t⟩, hscan, hn⟩ := Option.bind_eq_some_iff.mp h
  refine ⟨epc, hepc, ?_⟩
  rw [strstr_eq_append hepc, sscanf_eeFormat, hscan]
  cases hn
  rfl

/-- and a line without one has no `EPC`, or no number there. -/
theorem eeAddress_none {line : CStr} (h : eeAddress line = none) :
    strstr line.bytes epcWord = none ∨
      ∃ epc, strstr line.bytes epcWord = some epc ∧ sscanf eeFormat epc = [] := by
  cases hepc : strstr line.bytes epcWord with
  | none => exact Or.inl rfl
  | some epc =>
    right
    refine ⟨epc, rfl, ?_⟩
    rw [strstr_eq_append hepc, sscanf_eeFormat]
    cases hscan : scanHex (epc.drop epcWord.length) with
    | none => rfl
    | some r =>
      rw [eeAddress, hepc] at h
      simp [hscan] at h

/-- What `"\" Relative EPC %x"` assigns. -/
def relative (s : List Byte) : Option (BitVec 32) := do
  let rest ← after? (literal "\"") s
  let rest ← after? (literal "Relative") (rest.dropWhile isSpace)
  let rest ← after? (literal "EPC") (rest.dropWhile isSpace)
  let (pc, _) ← scanHex rest
  return pc

/-- The part of the format behind the name of the module. -/
theorem sscanf_relative (s : List Byte) :
    sscanf (.character (ascii '"') :: .blank :: (characters (literal "Relative") ++
      .blank :: (characters (literal "EPC") ++ [.blank, .hex]))) s =
      ((relative s).map Item.number).toList := by
  have hquote := sscanf_characters (literal "\"") (.blank :: (characters (literal "Relative") ++
    .blank :: (characters (literal "EPC") ++ [.blank, .hex]))) s
  refine Eq.trans hquote ?_
  rw [relative]
  cases after? (literal "\"") s with
  | none => rfl
  | some s =>
    simp only [Option.map_some, Option.getD_some, Option.bind_eq_bind, Option.bind_some]
    rw [sscanf, sscanf_characters]
    cases after? (literal "Relative") (s.dropWhile isSpace) with
    | none => rfl
    | some s =>
      simp only [Option.map_some, Option.getD_some, Option.bind_some]
      rw [sscanf, sscanf_characters]
      cases after? (literal "EPC") (s.dropWhile isSpace) with
      | none => rfl
      | some s =>
        simp only [Option.map_some, Option.getD_some, Option.bind_some]
        rw [sscanf_blank_hex]
        cases scanHex s with
        | none => rfl
        | some r => rfl

theorem sscanf_iopFormat (rest : List Byte) :
    sscanf iopFormat (moduleWord ++ rest) =
      sscanf (.scanset 127 (ascii '"') :: .character (ascii '"') :: .blank ::
        (characters (literal "Relative") ++ .blank :: (characters (literal "EPC") ++
          [.blank, .hex]))) rest := by
  rfl

/-- The name of the module, and what follows it. -/
theorem iopAddress_eq {line : CStr} {found rest name : List Byte}
    (hfound : strstr line.bytes moduleWord = some found) (hrest : found.drop moduleWord.length = rest)
    (hname : rest.takeWhile (· ≠ ascii '"') = name) :
    iopAddress line = if 1 ≤ name.length ∧ name.length ≤ 127 then
      (relative (rest.drop name.length)).map (Prod.mk name) else none := by
  subst hname hrest
  rw [iopAddress, hfound, relative]
  simp only [Option.bind_eq_bind, Option.bind_some, Option.map_bind, Function.comp_def, guard]
  split_ifs with hlength
  · rfl
  · rfl

/-- A line with an address of the IOP has the name and one number behind its first `Module Name`, -/
theorem iopAddress_some {line : CStr} {name : List Byte} {pc : BitVec 32}
    (h : iopAddress line = some (name, pc)) :
    ∃ epc, strstr line.bytes moduleWord = some epc ∧
      sscanf iopFormat epc = [.text name, .number pc] := by
  cases hfound : strstr line.bytes moduleWord with
  | none =>
    rw [iopAddress, hfound] at h
    cases h
  | some found =>
    refine ⟨found, rfl, ?_⟩
    rw [iopAddress_eq hfound rfl rfl] at h
    split_ifs at h with hlength
    obtain ⟨pc', hpc, heq⟩ := Option.map_eq_some_iff.mp h
    cases heq
    rw [strstr_eq_append hfound, sscanf_iopFormat, sscanf_quoted hlength.1 hlength.2,
      sscanf_relative, hpc]
    rfl

/-- and a line without one lacks one of these. -/
theorem iopAddress_none {line : CStr} (h : iopAddress line = none) :
    strstr line.bytes moduleWord = none ∨
      ∃ epc, strstr line.bytes moduleWord = some epc ∧ (sscanf iopFormat epc).length ≤ 1 := by
  cases hfound : strstr line.bytes moduleWord with
  | none => exact Or.inl rfl
  | some found =>
    right
    refine ⟨found, rfl, ?_⟩
    rw [iopAddress_eq hfound rfl rfl] at h
    rw [strstr_eq_append hfound, sscanf_iopFormat]
    split_ifs at h with hlength
    · rw [sscanf_quoted hlength.1 hlength.2, sscanf_relative, Option.map_eq_none_iff.mp h]
      exact Nat.le_refl 1
    · exact sscanf_quoted_long hlength

/-! ## One line -/

/-- The header of a line decides the exception. -/
theorem enter_eq (line : CStr) (exception : Option Kind) :
    enter line.bytes exception = (header line).or exception := by
  rw [enter, header]
  simp only [strstr_isSome_iff]
  split_ifs <;> rfl

/-- What a line does in an episode of some kind: the call it makes if it has the address. -/
def lineCall (c : Config) : Kind → CStr → Option (Option Call)
  | .ee, line => do
    let elf ← c.eeElf
    let pc ← eeAddress line
    return some ⟨c.eeTool, elf, pc⟩
  | .iop, line => do
    let (name, pc) ← iopAddress line
    return (findElf name c.modules).map fun elf => ⟨c.iopTool, elf, pc⟩

/-- An episode makes the call of its first line with an address. -/
theorem call_cons (c : Config) (kind : Kind) (line : CStr) (lines : List CStr) :
    Episode.call c ⟨kind, line :: lines⟩ =
      (lineCall c kind line).getD (Episode.call c ⟨kind, lines⟩) := by
  cases kind with
  | ee =>
    rw [Episode.call, Episode.call, lineCall]
    simp only [List.findSome?_cons]
    cases c.eeElf with
    | none => rfl
    | some elf =>
      cases eeAddress line with
      | none => rfl
      | some pc => rfl
  | iop =>
    rw [Episode.call, Episode.call, lineCall]
    simp only [List.findSome?_cons]
    cases iopAddress line with
    | none => rfl
    | some r =>
      obtain ⟨name, pc⟩ := r
      simp only [Option.bind_eq_bind, Option.bind_some, Option.pure_def, Option.getD_some,
        findElf_eq, Option.map_eq_bind, Option.bind_assoc, Function.comp_def]

/-- The errors are the negative results. -/
def Counted {Context : Type} (s : Symbolizer Context) : Prop :=
  s.errors = (s.calls.countP fun r => r.2 < 0 : Nat)

/-- From `s` to `s'` at most the call `made` has been made. -/
structure Turned {Context : Type} (made : Option Call) (s s' : Symbolizer Context) : Prop where
  calls : s'.calls.map Prod.fst = s.calls.map Prod.fst ++ made.toList
  counted : Counted s → Counted s'

/-- Copying the line and consuming the exception make no call. -/
theorem Turned.start {Context : Type} {made : Option Call} {s t s' : Symbolizer Context}
    (h : Turned made t s') (hcalls : t.calls = s.calls) (herrors : t.errors = s.errors) :
    Turned made s s' := by
  constructor
  · rw [h.calls, hcalls]
  · intro hs
    refine h.counted ?_
    rw [Counted, herrors, hcalls]
    exact hs

section Turn

variable {Context : Type} (c : Config) (resolve : Resolver Context)

theorem report_calls (name symbol : List Byte) (call : Call) (value : Int) (s : Symbolizer Context) :
    (report name symbol call value s).calls = s.calls := by
  unfold report
  split_ifs <;> rfl

theorem report_context (name symbol : List Byte) (call : Call) (value : Int)
    (s : Symbolizer Context) : (report name symbol call value s).context = s.context := by
  unfold report
  split_ifs <;> rfl

theorem report_exception (name symbol : List Byte) (call : Call) (value : Int)
    (s : Symbolizer Context) :
    (report name symbol call value s).exception = s.exception := by
  unfold report
  split_ifs <;> rfl

/-- A tool that failed is counted. -/
theorem report_errors (name symbol : List Byte) (call : Call) (value : Int) (s : Symbolizer Context) :
    (report name symbol call value s).errors = s.errors + if value < 0 then 1 else 0 := by
  unfold report
  split_ifs with hpos hname hneg hneg
  · omega
  · exact (Int.add_zero _).symm
  · omega
  · exact (Int.add_zero _).symm
  · rfl
  · exact (Int.add_zero _).symm

/-- A lookup leaves the exception as it is. -/
theorem annotateSymbol_exception (name : List Byte) (tool : CStr) (elf : Option CStr) (pc : BitVec 32)
    (s : Symbolizer Context) :
    (annotateSymbol resolve name tool elf pc s).exception = s.exception := by
  cases elf with
  | none => rfl
  | some elf => exact report_exception _ _ _ _ _

/-- The resolver is called once, if there is an ELF. -/
theorem annotateSymbol_turned (name : List Byte) (tool : CStr) (elf : Option CStr) (pc : BitVec 32)
    (s : Symbolizer Context) :
    Turned (elf.map fun elf => ⟨tool, elf, pc⟩) s (annotateSymbol resolve name tool elf pc s) := by
  cases elf with
  | none => exact ⟨(List.append_nil _).symm, id⟩
  | some elf =>
    constructor
    · rw [annotateSymbol, report_calls, List.map_append]
      rfl
    · intro hs
      rw [Counted, annotateSymbol, report_errors, report_calls, List.countP_append, hs]
      rw [List.countP_singleton]
      by_cases hneg : (resolve s.context ⟨tool, elf, pc⟩).1.1 < 0
      · simp [hneg]
      · simp [hneg]

/-- From `s` to `s'` a line was read in an episode of some kind: it has ended the episode with its
call, or left it as it was. -/
structure Read (kind : Kind) (line : CStr) (s s' : Symbolizer Context) : Prop where
  turned : Turned (lineCall c kind line).join s s'
  exception : s'.exception = if (lineCall c kind line).isSome then none else some kind

/-- A line without an address goes on with the exception, -/
theorem Read.stay {kind : Kind} {line : CStr} {s : Symbolizer Context}
    (hcall : lineCall c kind line = none) (hs : s.exception = some kind) : Read c kind line s s := by
  constructor
  · rw [hcall]
    exact ⟨(List.append_nil _).symm, id⟩
  · rw [hcall]
    exact hs

/-- and a line with one ends it. -/
theorem Read.call {kind : Kind} {line : CStr} {name : List Byte} {tool : CStr} {elf : Option CStr}
    {pc : BitVec 32} {s : Symbolizer Context}
    (hcall : lineCall c kind line = some (elf.map fun elf => ⟨tool, elf, pc⟩)) :
    Read c kind line s (annotateSymbol resolve name tool elf pc { s with exception := none }) := by
  constructor
  · rw [hcall]
    exact (annotateSymbol_turned resolve name tool elf pc _).start rfl rfl
  · rw [hcall]
    exact annotateSymbol_exception resolve name tool elf pc _

/-- A line with the address ends the EE episode, any other one changes nothing. -/
theorem annotateEe_cases {elf : CStr} (helf : c.eeElf = some elf) (line : CStr)
    (s : Symbolizer Context) :
    (lineCall c .ee line = none ∧ annotateEe c resolve elf line.bytes s = s) ∨
      ∃ pc, lineCall c .ee line = some ((some elf).map fun elf => ⟨c.eeTool, elf, pc⟩) ∧
        annotateEe c resolve elf line.bytes s =
          annotateSymbol resolve [] c.eeTool (some elf) pc { s with exception := none } := by
  unfold annotateEe
  cases hpc : eeAddress line with
  | none =>
    have hcall : lineCall c .ee line = none := by
      rw [lineCall, helf, hpc]
      rfl
    left
    rcases eeAddress_none hpc with hepc | ⟨epc, hepc, hscan⟩
    · rw [hepc]
      exact ⟨hcall, rfl⟩
    · rw [hepc]
      simp only [hscan]
      exact ⟨hcall, trivial⟩
  | some pc =>
    have hcall : lineCall c .ee line = some ((some elf).map fun elf => ⟨c.eeTool, elf, pc⟩) := by
      rw [lineCall, helf, hpc]
      rfl
    obtain ⟨epc, hepc, hscan⟩ := eeAddress_some hpc
    rw [hepc]
    simp only [hscan]
    exact .inr ⟨pc, hcall, rfl⟩

/-- A line with the module and the address ends the IOP episode, any other one changes nothing. -/
theorem annotateIop_cases (line : CStr) (s : Symbolizer Context) :
    (lineCall c .iop line = none ∧ annotateIop c resolve line.bytes s = s) ∨
      ∃ name pc, iopAddress line = some (name, pc) ∧ lineCall c .iop line =
          some ((findElf name c.modules).map fun elf => ⟨c.iopTool, elf, pc⟩) ∧
        annotateIop c resolve line.bytes s = annotateSymbol resolve name c.iopTool
          (findElf name c.modules) pc { s with exception := none } := by
  unfold annotateIop
  cases hpc : iopAddress line with
  | none =>
    have hcall : lineCall c .iop line = none := by
      rw [lineCall, hpc]
      rfl
    left
    rcases iopAddress_none hpc with hepc | ⟨epc, hepc, hscan⟩
    · rw [hepc]
      exact ⟨hcall, rfl⟩
    · rw [hepc]
      -- fewer than two items are not enough
      dsimp only
      generalize sscanf iopFormat epc = items at hscan ⊢
      match items, hscan with
      | [], _ => exact ⟨hcall, rfl⟩
      | [.text _], _ => exact ⟨hcall, rfl⟩
      | [.number _], _ => exact ⟨hcall, rfl⟩
  | some r =>
    obtain ⟨name, pc⟩ := r
    have hcall : lineCall c .iop line =
        some ((findElf name c.modules).map fun elf => ⟨c.iopTool, elf, pc⟩) := by
      rw [lineCall, hpc]
      rfl
    obtain ⟨epc, hepc, hscan⟩ := iopAddress_some hpc
    rw [hepc]
    simp only [hscan]
    exact .inr ⟨name, pc, rfl, hcall, rfl⟩

/-- A line within an exception of the EE, -/
theorem annotateEe_read {elf : CStr} (helf : c.eeElf = some elf) (line : CStr)
    {s : Symbolizer Context} (hs : s.exception = some .ee) :
    Read c .ee line s (annotateEe c resolve elf line.bytes s) := by
  rcases annotateEe_cases c resolve helf line s with ⟨hcall, hrun⟩ | ⟨pc, hcall, hrun⟩
  · rw [hrun]
    exact Read.stay c hcall hs
  · rw [hrun]
    exact Read.call c resolve hcall

/-- and within one of the IOP. -/
theorem annotateIop_read (line : CStr) {s : Symbolizer Context} (hs : s.exception = some .iop) :
    Read c .iop line s (annotateIop c resolve line.bytes s) := by
  rcases annotateIop_cases c resolve line s with ⟨hcall, hrun⟩ | ⟨name, pc, -, hcall, hrun⟩
  · rw [hrun]
    exact Read.stay c hcall hs
  · rw [hrun]
    exact Read.call c resolve hcall

/-- A line that has the address the episode waits for ends it with its call; any other line leaves
the episode as it is. -/
theorem annotateLine_turned (line : CStr) (s : Symbolizer Context) {exception : Option Kind}
    (hexception : (header line).or s.exception = exception) :
    Turned (exception.bind (lineCall c · line)).join s (annotateLine c resolve line s) ∧
      (annotateLine c resolve line s).exception =
        if (exception.bind (lineCall c · line)).isSome then none else exception := by
  rw [← enter_eq] at hexception
  unfold annotateLine
  simp only [hexception]
  cases exception with
  | none => exact ⟨⟨(List.append_nil _).symm, id⟩, rfl⟩
  | some kind =>
    rw [Option.bind_some]
    cases kind with
    | ee =>
      cases helf : c.eeElf with
      | none =>
        have hcall : lineCall c .ee line = none := by
          rw [lineCall, helf]
          rfl
        rw [hcall]
        exact ⟨⟨(List.append_nil _).symm, id⟩, rfl⟩
      | some elf =>
        have hread := annotateEe_read c resolve helf line
          (s := { s with out := s.out ++ line.bytes, exception := some .ee }) rfl
        exact ⟨hread.turned.start rfl rfl, hread.exception⟩
    | iop =>
      have hread := annotateIop_read c resolve line
        (s := { s with out := s.out ++ line.bytes, exception := some .iop }) rfl
      exact ⟨hread.turned.start rfl rfl, hread.exception⟩

/-! ## A log -/

/-- The calls still to come: that of the episode under way, and those of the others. -/
def callsAhead (exception : Option Kind) (lines : List CStr) : List Call :=
  (exception.bind fun kind => Episode.call c ⟨kind, lines.takeWhile (header · = none)⟩).toList ++
    (episodes lines).filterMap (Episode.call c)

/-- An episode without lines makes no call. -/
theorem call_nil (kind : Kind) : Episode.call c ⟨kind, []⟩ = none := by
  cases kind with
  | ee => cases h : c.eeElf <;> simp [Episode.call, h]
  | iop => rfl

/-- What `f` finds in the episode under way, and in those to come. -/
def ahead {β : Type} (f : Episode → Option β) (exception : Option Kind) (lines : List CStr) : List β :=
  (exception.bind fun kind => f ⟨kind, lines.takeWhile (header · = none)⟩).toList ++
    (episodes lines).filterMap f

section Ahead

variable {β : Type} {f : Episode → Option β}

theorem ahead_nil (hnil : ∀ kind, f ⟨kind, []⟩ = none) (exception : Option Kind) :
    ahead f exception [] = [] := by
  cases exception with
  | none => rfl
  | some kind =>
    rw [ahead, Option.bind_some, List.takeWhile_nil, hnil]
    rfl

/-- The episode under way at a line, with that line. -/
theorem ahead_cons (hnil : ∀ kind, f ⟨kind, []⟩ = none) (exception : Option Kind) (line : CStr)
    (lines : List CStr) :
    ahead f exception (line :: lines) =
      (((header line).or exception).bind fun kind =>
        f ⟨kind, line :: lines.takeWhile (header · = none)⟩).toList ++
        (episodes lines).filterMap f := by
  rw [ahead, episodes]
  cases hheader : header line with
  | none =>
    rw [List.takeWhile_cons_of_pos (by simp [hheader])]
    rfl
  | some kind =>
    rw [List.takeWhile_cons_of_neg (by simp [hheader])]
    have hnone : (exception.bind fun kind => f ⟨kind, []⟩) = none := by
      cases exception with
      | none => rfl
      | some kind => exact hnil kind
    rw [hnone, List.filterMap_cons]
    simp only [Option.some_or, Option.bind_some, Option.toList_none, List.nil_append]
    cases f ⟨kind, line :: lines.takeWhile (header · = none)⟩ <;> rfl

/-- A line gives what is due, or leaves it to the lines that follow. -/
theorem ahead_turn (hnil : ∀ kind, f ⟨kind, []⟩ = none) {g : Kind → CStr → Option (Option β)}
    (hcons : ∀ kind line lines, f ⟨kind, line :: lines⟩ = (g kind line).getD (f ⟨kind, lines⟩))
    (line : CStr) (lines : List CStr) (exception : Option Kind) :
    ahead f exception (line :: lines) =
      (((header line).or exception).bind (g · line)).join.toList ++
        ahead f (if (((header line).or exception).bind (g · line)).isSome then none
          else (header line).or exception) lines := by
  rw [ahead_cons hnil]
  cases (header line).or exception with
  | none => rfl
  | some kind =>
    rw [Option.bind_some, Option.bind_some, hcons]
    cases g kind line with
    | none => rfl
    | some made => rfl

end Ahead

theorem callsAhead_turn (line : CStr) (lines : List CStr) (exception : Option Kind) :
    callsAhead c exception (line :: lines) =
      (((header line).or exception).bind (lineCall c · line)).join.toList ++
        callsAhead c (if (((header line).or exception).bind (lineCall c · line)).isSome then none
          else (header line).or exception) lines :=
  ahead_turn (call_nil c) (call_cons c) line lines exception

/-- The calls of a log are those of its episodes, in order. -/
theorem annotate_turned (s : Symbolizer Context) (lines : List CStr) :
    (annotate c resolve s lines).calls.map Prod.fst =
      s.calls.map Prod.fst ++ callsAhead c s.exception lines ∧
      (Counted s → Counted (annotate c resolve s lines)) := by
  induction lines generalizing s with
  | nil =>
    constructor
    · have hnil : callsAhead c s.exception [] = [] := ahead_nil (call_nil c) s.exception
      rw [hnil]
      exact (List.append_nil _).symm
    · exact id
  | cons line lines ih =>
    obtain ⟨hturned, hexception⟩ := annotateLine_turned c resolve line s rfl
    obtain ⟨hcalls, hcounted⟩ := ih (annotateLine c resolve line s)
    constructor
    · rw [callsAhead_turn, ← hexception, ← List.append_assoc, ← hturned.calls]
      exact hcalls
    · intro hs
      exact hcounted (hturned.counted hs)

/-- Over every log the resolver is called once for each episode that reports an address of its kind
and has an ELF for it, in the order of the episodes, and each negative result counts as an error. -/
theorem episodes_called (context : Context) (lines : List CStr) :
    (annotate c resolve (.initial context) lines).calls.map Prod.fst =
      (episodes lines).filterMap (Episode.call c) ∧
      (annotate c resolve (.initial context) lines).errors =
        ((annotate c resolve (.initial context) lines).calls.countP fun r => r.2 < 0 : Nat) := by
  obtain ⟨hcalls, hcounted⟩ := annotate_turned c resolve (.initial context) lines
  exact ⟨hcalls, hcounted rfl⟩

end Turn

end Symbolize

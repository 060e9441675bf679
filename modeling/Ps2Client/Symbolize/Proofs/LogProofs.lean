import Ps2Client.Symbolize.Log
import Ps2Client.Symbolize.Proofs.AnnotateProofs

/-!
# Proofs: what `ps2symbolize` leaves of a log

What is read is copied, and what a call gives is inserted behind the line with its address. Between
the two the log changes where a line has a null, and a line is broken where its address is resolved
before it has ended.
-/

namespace Symbolize

open CMemory

/-! ## What is read -/

/-- At the end of the log, there are no more lines. -/
theorem lines_end {input : List Byte} (h : fgets 8192 input = none) : lines input = [] := by
  rw [lines, pieces]
  split
  · rfl
  · next hread => cases h.symm.trans hread

theorem lines_read {input line rest : List Byte} (h : fgets 8192 input = some (line, rest)) :
    lines input = .ofBuffer line :: lines rest := by
  rw [lines, pieces]
  split
  · next hread => cases h.symm.trans hread
  · next hread =>
    cases h.symm.trans hread
    rfl

/-- Without a null the lines are the input. -/
theorem lines_flatten {input : List Byte} (hinput : 0 ∉ input) :
    ((lines input).map CStr.bytes).flatten = input := by
  induction input using pieces.induct with
  | case1 input h =>
    rw [lines_end h]
    rw [fgets] at h
    split_ifs at h with hnil
    exact hnil.symm
  | case2 input line rest h ih =>
    have happend := fgets_append h
    rw [← happend, List.mem_append, not_or] at hinput
    have hline : (CStr.ofBuffer line).bytes = line := cstr_eq_self hinput.1
    rw [lines_read h, List.map_cons, List.flatten_cons, ih hinput.2, hline]
    exact happend

/-- What is printed of the log has no nulls. -/
theorem zero_notMem_lines (lines : List CStr) : 0 ∉ (lines.map CStr.bytes).flatten := by
  intro hmem
  obtain ⟨bytes, hbytes, hzero⟩ := List.mem_flatten.mp hmem
  obtain ⟨line, -, rfl⟩ := List.mem_map.mp hbytes
  exact line.noNull hzero

/-! ## What is written -/

/-- The line of a symbol ends in a newline. -/
theorem symbolLine_getLast (name symbol : List Byte) :
    (symbolLine name symbol).getLast? = some newline := by
  have hend : (literal "\n").getLast? = some newline := rfl
  rw [symbolLine]
  by_cases hname : name ≠ []
  · rw [if_pos hname, List.getLast?_append, hend]
    rfl
  · rw [if_neg hname, List.getLast?_append, hend]
    rfl

theorem symbolLine_ne_nil (name symbol : List Byte) : symbolLine name symbol ≠ [] := by
  intro hnil
  have hlast := symbolLine_getLast name symbol
  rw [hnil] at hlast
  cases hlast

section Written

variable {Context : Type} (c : Config) (resolve : Resolver Context)

/-- What a line is followed by when it has made this call, if any. -/
def written (name : List Byte) (context : Context) : Option Call → List Byte
  | none => []
  | some call =>
    let (value, symbol) := (resolve context call).1
    if 0 < value then symbolLine name symbol else []

/-- A symbol is printed when it was found. -/
theorem report_out (name symbol : List Byte) (call : Call) (value : Int) (s : Symbolizer Context) :
    (report name symbol call value s).out =
      s.out ++ if 0 < value then symbolLine name symbol else [] := by
  rw [report, symbolLine]
  by_cases hpos : 0 < value
  · rw [if_pos hpos, if_pos hpos]
    by_cases hname : name ≠ []
    · rw [if_pos hname, if_pos hname]
      simp only [List.append_assoc]
    · rw [if_neg hname, if_neg hname]
      simp only [List.append_assoc]
  · rw [if_neg hpos, if_neg hpos, List.append_nil]
    by_cases hneg : value < 0
    · rw [if_pos hneg]
    · rw [if_neg hneg]

/-- So is the symbol of a call that is made. -/
theorem annotateSymbol_out (name : List Byte) (tool : CStr) (elf : Option CStr) (pc : BitVec 32)
    (s : Symbolizer Context) :
    (annotateSymbol resolve name tool elf pc s).out =
      s.out ++ written resolve name s.context (elf.map fun elf => ⟨tool, elf, pc⟩) := by
  cases elf with
  | none => exact (List.append_nil _).symm
  | some elf => exact report_out _ _ _ _ _

/-- What a line looks up in an episode of some kind. -/
def lineLookup (kind : Kind) (line : CStr) : Option (Option Lookup) :=
  (lineCall c kind line).map fun made => made.map fun call => ⟨line, kind.moduleName line, call⟩

/-- After a lookup, if there is one. -/
def followed (made : Option Lookup) (s : Symbolizer Context) : Symbolizer Context :=
  match made with
  | none => s
  | some l => annotateSymbol resolve l.name l.call.tool (some l.call.elf) l.call.pc s

/-- A line is copied and makes its lookup, which ends the episode. -/
theorem annotateLine_eq (line : CStr) (s : Symbolizer Context) {exception : Option Kind}
    (hexception : (header line).or s.exception = exception) :
    annotateLine c resolve line s =
      followed resolve (exception.bind (lineLookup c · line)).join { s with
        out := s.out ++ line.bytes
        exception := if (exception.bind (lineCall c · line)).isSome then none else exception } := by
  rw [← enter_eq] at hexception
  unfold annotateLine
  simp only [hexception]
  cases exception with
  | none => rfl
  | some kind =>
    rw [Option.bind_some, Option.bind_some, lineLookup]
    cases kind with
    | ee =>
      cases helf : c.eeElf with
      | none =>
        have hcall : lineCall c .ee line = none := by
          rw [lineCall, helf]
          rfl
        rw [hcall]
        rfl
      | some elf =>
        rcases annotateEe_cases c resolve helf line
          { s with out := s.out ++ line.bytes, exception := some .ee } with
          ⟨hcall, hrun⟩ | ⟨pc, hcall, hrun⟩
        · simp only [hcall, hrun]
          rfl
        · simp only [hcall, hrun]
          rfl
    | iop =>
      rcases annotateIop_cases c resolve line
        { s with out := s.out ++ line.bytes, exception := some .iop } with
        ⟨hcall, hrun⟩ | ⟨name, pc, haddress, hcall, hrun⟩
      · simp only [hcall, hrun]
        rfl
      · have hname : Kind.iop.moduleName line = name := by
          rw [Kind.moduleName, haddress]
          rfl
        simp only [hcall, hrun, hname]
        cases findElf name c.modules with
        | none => rfl
        | some elf => rfl

/-- A line is copied, and followed by what its call gives. -/
theorem annotateLine_out (line : CStr) (s : Symbolizer Context) :
    ∃ name, (annotateLine c resolve line s).out = s.out ++ line.bytes ++
      written resolve name s.context (((header line).or s.exception).bind (lineCall c · line)).join := by
  rw [annotateLine_eq c resolve line s rfl]
  cases (header line).or s.exception with
  | none => exact ⟨[], (List.append_nil _).symm⟩
  | some kind =>
    refine ⟨kind.moduleName line, ?_⟩
    rw [Option.bind_some, Option.bind_some, lineLookup]
    cases lineCall c kind line with
    | none => exact (List.append_nil _).symm
    | some made =>
      cases made with
      | none => exact (List.append_nil _).symm
      | some call => exact annotateSymbol_out resolve _ call.tool (some call.elf) call.pc _

/-- Behind a line comes what its call has found, and the line itself is copied. -/
theorem inserted_eq (line : CStr) (s : Symbolizer Context) :
    (∃ name, inserted c resolve line s = written resolve name s.context
      (((header line).or s.exception).bind (lineCall c · line)).join) ∧
      (annotateLine c resolve line s).out = s.out ++ line.bytes ++ inserted c resolve line s := by
  obtain ⟨name, hout⟩ := annotateLine_out c resolve line s
  have hinserted : inserted c resolve line s = written resolve name s.context
      (((header line).or s.exception).bind (lineCall c · line)).join := by
    rw [inserted, hout]
    exact List.drop_left' List.length_append
  refine ⟨⟨name, hinserted⟩, ?_⟩
  rw [hinserted]
  exact hout

/-- What is inserted is a line, and it comes from a call. -/
theorem inserted_line {line : CStr} {s : Symbolizer Context} (h : inserted c resolve line s ≠ []) :
    (inserted c resolve line s).getLast? = some newline ∧
      ((((header line).or s.exception).bind (lineCall c · line)).join).isSome := by
  obtain ⟨⟨name, hinserted⟩, -⟩ := inserted_eq c resolve line s
  rw [hinserted] at h ⊢
  cases hcall : (((header line).or s.exception).bind (lineCall c · line)).join with
  | none =>
    rw [hcall] at h
    exact absurd rfl h
  | some call =>
    rw [hcall, written] at h
    rw [written]
    dsimp only at h ⊢
    split_ifs at h ⊢ with hpos
    · exact ⟨symbolLine_getLast _ _, rfl⟩
    · exact absurd rfl h

/-- A resolver that finds every symbol has one inserted by every call. -/
theorem inserted_of_found (hfound : ∀ context call, 0 < (resolve context call).1.1) {line : CStr}
    {s : Symbolizer Context} {call : Call}
    (hcall : (((header line).or s.exception).bind (lineCall c · line)).join = some call) :
    inserted c resolve line s ≠ [] := by
  obtain ⟨⟨name, hinserted⟩, -⟩ := inserted_eq c resolve line s
  rw [hinserted, hcall, written]
  dsimp only
  rw [if_pos (hfound _ _)]
  exact symbolLine_ne_nil name _

/-! ## The loop -/

theorem readLoop_eq (input : List Byte) (s : Symbolizer Context) :
    readLoop c resolve input s = annotate c resolve s (lines input) := by
  induction input, s using readLoop.induct c resolve with
  | case1 input s h =>
    rw [lines_end h, readLoop]
    split
    · rfl
    · next hread => cases h.symm.trans hread
  | case2 input s line rest h ih =>
    rw [lines_read h, readLoop]
    split
    · next hread => cases h.symm.trans hread
    · next hread =>
      cases h.symm.trans hread
      exact ih

/-- The output is each line with what is inserted behind it. -/
theorem annotate_out (s : Symbolizer Context) (lines : List CStr) :
    (annotate c resolve s lines).out =
      s.out ++ ((insertions c resolve s lines).map fun b => b.1.bytes ++ b.2).flatten := by
  induction lines generalizing s with
  | nil => exact (List.append_nil _).symm
  | cons line lines ih =>
    have hline := (inserted_eq c resolve line s).2
    have htail := ih (annotateLine c resolve line s)
    rw [hline] at htail
    rw [insertions, List.map_cons, List.flatten_cons]
    simp only [List.append_assoc] at htail ⊢
    exact htail

/-- The insertions are behind the lines in their order. -/
theorem insertions_lines (s : Symbolizer Context) (lines : List CStr) :
    ((insertions c resolve s lines).map fun b => b.1.bytes) = lines.map CStr.bytes := by
  induction lines generalizing s with
  | nil => rfl
  | cons line lines ih => exact congrArg (line.bytes :: ·) (ih _)

/-- What is inserted ends in a newline. -/
theorem insertions_annotated (s : Symbolizer Context) (lines : List CStr) :
    ∀ b ∈ insertions c resolve s lines, b.2 ≠ [] → b.2.getLast? = some newline := by
  induction lines generalizing s with
  | nil =>
    intro b hb
    cases hb
  | cons line lines ih =>
    intro b hb hne
    rcases List.mem_cons.mp hb with rfl | hb
    · exact (inserted_line c resolve hne).1
    · exact ih _ b hb hne

/-! ## Lines with an address -/

/-- A line that makes a call has an address. -/
theorem hasAddress_of_call {kind : Kind} {line : CStr} {made : Option Call}
    (h : lineCall c kind line = some made) : kind.hasAddress line = true := by
  cases kind with
  | ee =>
    obtain ⟨elf, -, h⟩ := Option.bind_eq_some_iff.mp h
    obtain ⟨pc, hpc, -⟩ := Option.bind_eq_some_iff.mp h
    exact Option.isSome_iff_exists.mpr ⟨pc, hpc⟩
  | iop =>
    obtain ⟨r, hr, -⟩ := Option.bind_eq_some_iff.mp h
    exact Option.isSome_iff_exists.mpr ⟨r, hr⟩

/-- Without a call a line has no address, or the episode makes none. -/
theorem hasAddress_of_quiet {kind : Kind} {line : CStr} (h : lineCall c kind line = none) :
    kind.hasAddress line = false ∨ ∀ lines, Episode.call c ⟨kind, lines⟩ = none := by
  cases kind with
  | ee =>
    cases helf : c.eeElf with
    | none =>
      right
      intro lines
      rw [Episode.call, helf]
      rfl
    | some elf =>
      left
      rw [lineCall, helf] at h
      cases hpc : eeAddress line with
      | none =>
        rw [Kind.hasAddress, hpc]
        rfl
      | some pc =>
        rw [hpc] at h
        cases h
  | iop =>
    left
    rw [lineCall] at h
    cases hpc : iopAddress line with
    | none =>
      rw [Kind.hasAddress, hpc]
      rfl
    | some r =>
      rw [hpc] at h
      cases h

theorem calledLine_nil (kind : Kind) : Episode.calledLine c ⟨kind, []⟩ = none := by
  rw [Episode.calledLine, call_nil]
  rfl

/-- What a line is in an episode of some kind: the called one if it makes the call. -/
def lineCalled (kind : Kind) (line : CStr) : Option (Option CStr) :=
  (lineCall c kind line).map fun made => made.map fun _ => line

theorem calledLine_cons (kind : Kind) (line : CStr) (lines : List CStr) :
    Episode.calledLine c ⟨kind, line :: lines⟩ =
      (lineCalled c kind line).getD (Episode.calledLine c ⟨kind, lines⟩) := by
  rw [Episode.calledLine, Episode.calledLine, lineCalled, call_cons]
  cases hcall : lineCall c kind line with
  | none =>
    rw [Option.map_none, Option.getD_none, Option.getD_none]
    rcases hasAddress_of_quiet c hcall with haddress | hquiet
    · rw [List.find?_cons_of_neg (by simp [haddress])]
    · rw [hquiet]
      rfl
  | some made =>
    rw [Option.map_some, Option.getD_some, Option.getD_some]
    rw [List.find?_cons_of_pos (hasAddress_of_call c hcall)]
    cases made with
    | none => rfl
    | some call => rfl

/-- The lines with the addresses still to be resolved. -/
theorem calledAhead_turn (line : CStr) (lines : List CStr) (s : Symbolizer Context) :
    ahead (Episode.calledLine c) s.exception (line :: lines) =
      ((((header line).or s.exception).bind (lineCall c · line)).join.map fun _ => line).toList ++
        ahead (Episode.calledLine c) (annotateLine c resolve line s).exception lines := by
  rw [(annotateLine_turned c resolve line s rfl).2]
  rw [ahead_turn (calledLine_nil c) (calledLine_cons c) line lines s.exception]
  cases (header line).or s.exception with
  | none => rfl
  | some kind =>
    rw [Option.bind_some, Option.bind_some, lineCalled, Option.isSome_map]
    cases lineCall c kind line with
    | none => rfl
    | some made => rfl

/-- What is inserted comes behind a line with an address that is resolved. -/
theorem insertions_called (s : Symbolizer Context) (lines : List CStr) :
    ∀ b ∈ insertions c resolve s lines, b.2 ≠ [] →
      b.1 ∈ ahead (Episode.calledLine c) s.exception lines := by
  induction lines generalizing s with
  | nil =>
    intro b hb
    cases hb
  | cons line lines ih =>
    intro b hb hne
    rw [calledAhead_turn c resolve, List.mem_append]
    rcases List.mem_cons.mp hb with rfl | hb
    · left
      have hcall := (inserted_line c resolve hne).2
      obtain ⟨call, hcall⟩ := Option.isSome_iff_exists.mp hcall
      rw [hcall]
      exact List.mem_singleton_self line
    · exact Or.inr (ih _ b hb hne)

/-- Behind each of them something is inserted, when the resolver finds every symbol. -/
theorem insertions_complete (hfound : ∀ context call, 0 < (resolve context call).1.1)
    (s : Symbolizer Context) (lines : List CStr) :
    ∀ line ∈ ahead (Episode.calledLine c) s.exception lines,
      ∃ b ∈ insertions c resolve s lines, b.1 = line ∧ b.2 ≠ [] := by
  induction lines generalizing s with
  | nil =>
    intro line hline
    rw [ahead_nil (calledLine_nil c)] at hline
    cases hline
  | cons first lines ih =>
    intro line hline
    rw [calledAhead_turn c resolve, List.mem_append] at hline
    rcases hline with hline | hline
    · refine ⟨_, List.mem_cons_self, ?_⟩
      obtain ⟨call, hcall, rfl⟩ := Option.map_eq_some_iff.mp (Option.mem_toList.mp hline)
      exact ⟨rfl, inserted_of_found c resolve hfound hcall⟩
    · obtain ⟨b, hb, hb'⟩ := ih _ line hline
      exact ⟨b, List.mem_cons_of_mem _ hb, hb'⟩

/-! ## Lookups -/

theorem lookup_nil (kind : Kind) : Episode.lookup c ⟨kind, []⟩ = none := by
  rw [Episode.lookup, call_nil]
  rfl

theorem lookup_cons (kind : Kind) (line : CStr) (lines : List CStr) :
    Episode.lookup c ⟨kind, line :: lines⟩ =
      (lineLookup c kind line).getD (Episode.lookup c ⟨kind, lines⟩) := by
  rw [Episode.lookup, Episode.lookup, lineLookup, call_cons]
  cases hcall : lineCall c kind line with
  | none =>
    rw [Option.map_none, Option.getD_none, Option.getD_none]
    rcases hasAddress_of_quiet c hcall with haddress | hquiet
    · rw [List.find?_cons_of_neg (by simp [haddress])]
    · rw [hquiet]
      rfl
  | some made =>
    rw [Option.map_some, Option.getD_some, Option.getD_some]
    rw [List.find?_cons_of_pos (hasAddress_of_call c hcall)]
    cases made with
    | none => rfl
    | some call => rfl

/-- What a line looks up after `s`. -/
def dueLookup (s : Symbolizer Context) (line : CStr) : Option Lookup :=
  (((header line).or s.exception).bind (lineLookup c · line)).join

/-- The lookups still to come. -/
theorem lookupsAhead_turn (line : CStr) (lines : List CStr) (s : Symbolizer Context) :
    ahead (Episode.lookup c) s.exception (line :: lines) =
      (dueLookup c s line).toList ++
        ahead (Episode.lookup c) (annotateLine c resolve line s).exception lines := by
  rw [(annotateLine_turned c resolve line s rfl).2]
  rw [ahead_turn (lookup_nil c) (lookup_cons c) line lines s.exception, dueLookup]
  cases (header line).or s.exception with
  | none => rfl
  | some kind =>
    rw [Option.bind_some, Option.bind_some, lineLookup, Option.isSome_map]

/-- What the line changes is what its lookup gives. -/
theorem annotateLine_looks {line : CStr} {s : Symbolizer Context} {l : Lookup}
    (hdue : dueLookup c s line = some l) :
    (annotateLine c resolve line s).context = (resolve s.context l.call).2 ∧
      (annotateLine c resolve line s).calls = s.calls ++ [(l.call, (resolve s.context l.call).1.1)] ∧
      inserted c resolve line s = if 0 < (resolve s.context l.call).1.1 then
        symbolLine l.name (resolve s.context l.call).1.2 else [] := by
  have hline := annotateLine_eq c resolve line s rfl
  rw [show (((header line).or s.exception).bind (lineLookup c · line)).join = some l from hdue] at hline
  refine ⟨?_, ?_, ?_⟩
  · rw [hline]
    exact report_context _ _ _ _ _
  · rw [hline]
    exact report_calls _ _ _ _ _
  · rw [inserted, hline, followed, annotateSymbol_out]
    exact List.drop_left' List.length_append

/-- Without a lookup it is only copied. -/
theorem annotateLine_quiet {line : CStr} {s : Symbolizer Context} (hdue : dueLookup c s line = none) :
    (annotateLine c resolve line s).context = s.context ∧
      (annotateLine c resolve line s).calls = s.calls ∧ inserted c resolve line s = [] := by
  have hline := annotateLine_eq c resolve line s rfl
  rw [show (((header line).or s.exception).bind (lineLookup c · line)).join = none from hdue] at hline
  refine ⟨by rw [hline]; rfl, by rw [hline]; rfl, ?_⟩
  rw [inserted, hline]
  exact List.drop_of_length_le (Nat.le_of_eq List.length_append)

/-- A lookup is of the line that is read. -/
theorem lookup_line {line : CStr} {s : Symbolizer Context} {l : Lookup}
    (hdue : dueLookup c s line = some l) : l.line = line := by
  unfold dueLookup at hdue
  cases hkind : (header line).or s.exception with
  | none =>
    rw [hkind] at hdue
    cases hdue
  | some kind =>
    rw [hkind, Option.bind_some, lineLookup] at hdue
    obtain ⟨made, -, hmade⟩ := Option.map_eq_some_iff.mp (Option.join_eq_some_iff.mp hdue)
    obtain ⟨call, -, rfl⟩ := Option.map_eq_some_iff.mp hmade
    rfl

/-- A log gives what its lookups give: the calls and their results, what they leave, and what is
inserted. -/
theorem annotate_looks (s : Symbolizer Context) (lines : List CStr) :
    let r := lookUp resolve (ahead (Episode.lookup c) s.exception lines) s.context
    (annotate c resolve s lines).context = r.2 ∧
      (annotate c resolve s lines).calls = s.calls ++ r.1.map (fun a => (a.1.call, a.2.1)) ∧
      ((insertions c resolve s lines).filter fun b => b.2 ≠ []) = r.1.filterMap insertion := by
  induction lines generalizing s with
  | nil =>
    rw [ahead_nil (lookup_nil c)]
    exact ⟨rfl, (List.append_nil _).symm, rfl⟩
  | cons line lines ih =>
    obtain ⟨hcontext, hcalls, hinsertions⟩ := ih (annotateLine c resolve line s)
    rw [lookupsAhead_turn c resolve, insertions]
    dsimp only at hcontext hcalls hinsertions ⊢
    cases hdue : dueLookup c s line with
    | none =>
      obtain ⟨hsame, hnone, hquiet⟩ := annotateLine_quiet c resolve hdue
      rw [hsame] at hcontext hcalls hinsertions
      rw [hnone] at hcalls
      rw [hquiet, List.filter_cons_of_neg (by simp)]
      exact ⟨hcontext, hcalls, hinsertions⟩
    | some l =>
      obtain ⟨hnext, hmade, hinserted⟩ := annotateLine_looks c resolve hdue
      rw [hnext] at hcontext hcalls hinsertions
      rw [hmade, List.append_assoc] at hcalls
      refine ⟨hcontext, hcalls, ?_⟩
      rw [Option.toList_some, List.singleton_append, lookUp]
      dsimp only
      rw [hinserted, ← lookup_line c hdue]
      by_cases hpos : 0 < (resolve s.context l.call).1.1
      · have hsome : insertion (l, (resolve s.context l.call).1) =
            some (l.line, symbolLine l.name (resolve s.context l.call).1.2) := if_pos hpos
        have hne := symbolLine_ne_nil l.name (resolve s.context l.call).1.2
        rw [if_pos hpos, List.filter_cons_of_pos (by simpa using hne),
          List.filterMap_cons_some hsome, lookup_line c hdue, hinsertions]
      · have hnone : insertion (l, (resolve s.context l.call).1) = none := if_neg hpos
        rw [if_neg hpos, List.filter_cons_of_neg (by simp), List.filterMap_cons_none hnone,
          lookup_line c hdue, hinsertions]

/-! ## The log -/

/-- A log without nulls whose addresses end their lines is kept. -/
theorem logKept_of_lines {input : List Byte} (hinput : 0 ∉ input)
    (hend : AddressesEnd c (lines input)) (context : Context) : LogKept c resolve input context := by
  constructor
  · rw [readLoop_eq]
    exact annotate_out c resolve _ _
  · rw [insertions_lines]
    exact lines_flatten hinput
  · exact insertions_annotated c resolve _ _
  · intro b hb hne
    have hcalled := insertions_called c resolve _ _ b hb hne
    obtain ⟨e, he, hline⟩ := List.mem_filterMap.mp hcalled
    exact hend e he b.1 hline

end Written

/-- A log that is kept has no nulls. -/
theorem LogKept.noNull {Context : Type} {c : Config} {resolve : Resolver Context} {input : List Byte}
    {context : Context} (h : LogKept c resolve input context) : 0 ∉ input := by
  have hlog := h.log
  rw [insertions_lines] at hlog
  rw [← hlog]
  exact zero_notMem_lines _

/-- A resolver that finds a symbol for every address. -/
def found : Resolver Unit := fun context _ => ((1, []), context)

/-- In a log that is preserved, the line of every address that is resolved ends in a newline. -/
theorem LogPreserved.addressesEnd {c : Config} {input : List Byte} (h : LogPreserved c input) :
    AddressesEnd c (lines input) := by
  intro e he line hline
  have hahead : line ∈ ahead (Episode.calledLine c) none (lines input) :=
    List.mem_filterMap.mpr ⟨e, he, hline⟩
  obtain ⟨b, hb, rfl, hne⟩ :=
    insertions_complete c found (fun _ _ => Int.one_pos) (.initial ()) _ line hahead
  exact (h Unit found ()).placed b hb hne

/-- The log is preserved exactly when it has no null, and each line whose address is resolved ends in
a newline. -/
theorem logPreserved_iff (c : Config) (input : List Byte) :
    LogPreserved c input ↔ 0 ∉ input ∧ AddressesEnd c (lines input) := by
  constructor
  · intro h
    exact ⟨(h Unit found ()).noNull, h.addressesEnd⟩
  · rintro ⟨hinput, hend⟩ Context resolve context
    exact logKept_of_lines c resolve hinput hend context

def gameConfig : Config where
  eeElf := some ⟨literal "game.elf", by decide⟩
  eeTool := ⟨literal "ee-addr2line", by decide⟩
  iopTool := ⟨literal "iop-addr2line", by decide⟩
  modules := []

/-- A line with a null. -/
def nullLog : List Byte := [ascii 'a', 0, ascii 'b', newline]

/-- A report whose last line has not ended. -/
def openLog : List Byte := literal "EE Exception handler:\n" ++ literal "EPC 00123456"

def openEpisode : Episode where
  kind := .ee
  lines := [.ofBuffer (literal "EE Exception handler:\n"), .ofBuffer (literal "EPC 00123456")]

theorem episodes_openLog : episodes (lines openLog) = [openEpisode] := by
  have hfirst : fgets 8192 openLog =
      some (literal "EE Exception handler:\n", literal "EPC 00123456") := rfl
  have hlast : fgets 8192 (literal "EPC 00123456") = some (literal "EPC 00123456", []) := rfl
  rw [lines_read hfirst, lines_read hlast, lines_end rfl]
  decide

/-- The null is lost with the rest of its line; the symbol is inserted into the last line. -/
theorem not_logPreserved : ¬ LogPreserved gameConfig nullLog ∧ ¬ LogPreserved gameConfig openLog := by
  constructor
  · intro h
    exact (h Unit found ()).noNull (by decide)
  · intro h
    have hend := h.addressesEnd openEpisode
    rw [episodes_openLog] at hend
    have hline : openEpisode.calledLine gameConfig = some (.ofBuffer (literal "EPC 00123456")) := by
      decide
    exact absurd (hend (List.mem_singleton_self _) _ hline) (by decide)

end Symbolize

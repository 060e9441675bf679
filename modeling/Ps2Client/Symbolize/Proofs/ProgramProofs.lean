import Ps2Client.Symbolize.Proofs.LogProofs
import Ps2Client.Symbolize.Proofs.OptionsProofs
import Ps2Client.Symbolize.Proofs.ToolProofs

/-!
# Proofs: the program ps2symbolize

What a line does is said once; what holds of the calls, of the complaints and of the resources follows
for a whole log.
-/

namespace Symbolize

open CMemory History

/-! ## One line -/

section Line

variable {Context : Type} (c : Config) (resolve : Resolver Context)

theorem findElf_mem {name : List Byte} {modules : List ModuleMap} {elf : CStr}
    (hfound : findElf name modules = some elf) : ∃ m ∈ modules, m.elf = some elf := by
  induction modules with
  | nil => cases hfound
  | cons m modules ih =>
    rw [findElf] at hfound
    split at hfound
    · exact ⟨m, List.mem_cons_self, hfound⟩
    · obtain ⟨m', hmem, helf⟩ := ih hfound
      exact ⟨m', List.mem_cons_of_mem m hmem, helf⟩

/-- A line is copied, and there is at most one call, of a configured tool. -/
theorem annotateLine_step (line : CStr) (s : Symbolizer Context) :
    ∃ exception name tool elf pc,
      (∀ e, elf = some e → c.Configured ⟨tool, e, pc⟩) ∧
      annotateLine c resolve line s = annotateSymbol resolve name tool elf pc
        { s with out := s.out ++ line.bytes, exception := exception } := by
  unfold annotateLine
  dsimp only
  cases enter line.bytes s.exception with
  | none => exact ⟨none, [], c.eeTool, none, 0, nofun, rfl⟩
  | some kind =>
    cases kind with
    | ee =>
      cases helf : c.eeElf with
      | none => exact ⟨some .ee, [], c.eeTool, none, 0, nofun, rfl⟩
      | some elf =>
        dsimp only
        rcases annotateEe_cases c resolve helf line
          { s with out := s.out ++ line.bytes, exception := some .ee } with
          ⟨-, hrun⟩ | ⟨pc, -, hrun⟩
        · exact ⟨some .ee, [], c.eeTool, none, 0, nofun, hrun⟩
        · refine ⟨none, [], c.eeTool, some elf, pc, ?_, hrun⟩
          rintro e ⟨⟩
          exact .inl ⟨helf, rfl⟩
    | iop =>
      dsimp only
      rcases annotateIop_cases c resolve line
        { s with out := s.out ++ line.bytes, exception := some .iop } with
        ⟨-, hrun⟩ | ⟨name, pc, -, -, hrun⟩
      · exact ⟨some .iop, [], c.eeTool, none, 0, nofun, hrun⟩
      · exact ⟨none, name, c.iopTool, findElf name c.modules, pc,
          fun e he => .inr ⟨findElf_mem he, rfl⟩, hrun⟩

/-- What copying a line and a call of a configured tool keep, a log keeps. -/
theorem annotate_keeps {P : Symbolizer Context → Prop}
    (hcopy : ∀ s out exception, P s → P { s with out := out, exception := exception })
    (hcall : ∀ s name call, c.Configured call → P s →
      P (annotateSymbol resolve name call.tool (some call.elf) call.pc s))
    {s : Symbolizer Context} (hs : P s) (lines : List CStr) : P (annotate c resolve s lines) := by
  induction lines generalizing s with
  | nil => exact hs
  | cons line lines ih =>
    obtain ⟨exception, name, tool, elf, pc, hconfigured, hrun⟩ := annotateLine_step c resolve line s
    refine ih ?_
    show P (annotateLine c resolve line s)
    rw [hrun]
    have hcopied := hcopy s (s.out ++ line.bytes) exception hs
    cases elf with
    | none => exact hcopied
    | some elf => exact hcall _ name ⟨tool, elf, pc⟩ (hconfigured elf rfl) hcopied

/-! ## Complaints -/

/-- The standard error has the complaints about the calls that failed. -/
def Complained (s : Symbolizer Context) : Prop :=
  s.stderr = ((s.calls.filter fun x => x.2 < 0).map fun x => complaint x.1).flatten

theorem report_stderr (name symbol : List Byte) (call : Call) (value : Int) (s : Symbolizer Context) :
    (report name symbol call value s).stderr =
      s.stderr ++ if value < 0 then complaint call else [] := by
  unfold report complaint
  by_cases hpos : 0 < value
  · rw [if_pos hpos, if_neg (show ¬ value < 0 by omega), List.append_nil]
    split <;> rfl
  · rw [if_neg hpos]
    by_cases hneg : value < 0
    · rw [if_pos hneg, if_pos hneg]
      simp only [List.append_assoc]
    · rw [if_neg hneg, if_neg hneg, List.append_nil]

theorem Complained.call {name : List Byte} {call : Call} {s : Symbolizer Context} (hs : Complained s) :
    Complained (annotateSymbol resolve name call.tool (some call.elf) call.pc s) := by
  unfold annotateSymbol Complained
  dsimp only
  rw [report_calls, report_stderr, List.filter_append, List.map_append, List.flatten_append]
  rw [show s.stderr = _ from hs]
  by_cases hneg : (resolve s.context call).1.1 < 0
  · rw [if_pos hneg, List.filter_cons_of_pos (by simpa using hneg)]
    simp
  · rw [if_neg hneg, List.filter_cons_of_neg (by simpa using hneg)]
    simp

theorem annotate_complained (context : Context) (lines : List CStr) :
    Complained (annotate c resolve (.initial context) lines) :=
  annotate_keeps c resolve (P := Complained) (fun _ _ _ hs => hs)
    (fun _ _ _ _ hs => Complained.call resolve hs) (show Complained (.initial context) from rfl) lines

end Line

variable {κ : Type} (k : System κ) (logs : Logs)

/-- A log leaves nothing behind. -/
theorem annotate_tended (c : Config) (state : κ) (lines : List CStr) :
    (toolContract c).Holds (· = .none)
      (annotate c (resolveSymbol k) (.initial ⟨[], state⟩) lines).context.events := by
  refine annotate_keeps c (resolveSymbol k)
    (P := fun s => (toolContract c).Holds (· = .none) s.context.events) (fun _ _ _ hs => hs) ?_ ?_ lines
  · intro s name call hcall hs
    unfold annotateSymbol
    dsimp only
    rw [report_context]
    exact resolveSymbol_holds hcall hs
  · exact Contract.holds_nil rfl

theorem insertions_fst {Context : Type} (c : Config) (resolve : Resolver Context)
    (s : Symbolizer Context) (lines : List CStr) :
    (insertions c resolve s lines).map Prod.fst = lines := by
  induction lines generalizing s with
  | nil => rfl
  | cons line lines ih => exact congrArg (line :: ·) (ih _)

/-- The complaints are about the lookups that failed. -/
theorem complaints_eq (found : List Answered) :
    ((found.map fun a => (a.1.call, a.2.1)).filter fun x => x.2 < 0).map (fun x => complaint x.1) =
      (found.filter fun a => a.2.1 < 0).map fun a => complaint a.1.call := by
  rw [List.filter_map, List.map_map]
  rfl

theorem annotateLog_annotates (c : Config) (input : List Byte) (state : κ) :
    (annotateLog k c input state).Annotates k c input state := by
  obtain ⟨hcontext, hcalls, hinsertions⟩ :=
    annotate_looks c (resolveSymbol k) (.initial ⟨[], state⟩) (lines input)
  have hout := annotate_out c (resolveSymbol k) (.initial ⟨[], state⟩) (lines input)
  have hstderr := annotate_complained c (resolveSymbol k) ⟨[], state⟩ (lines input)
  have herrors := (annotate_turned c (resolveSymbol k) (.initial ⟨[], state⟩) (lines input)).2 rfl
  -- Before the log there is no episode under way.
  replace hcalls : (annotate c (resolveSymbol k) (.initial ⟨[], state⟩) (lines input)).calls =
    (answers k c input state).1.map fun a => (a.1.call, a.2.1) := hcalls
  unfold Complained at hstderr
  unfold Counted at herrors
  rw [hcalls, complaints_eq] at hstderr
  rw [hcalls] at herrors
  unfold annotateLog
  dsimp only
  rw [readLoop_eq]
  refine ⟨hcontext, ⟨_, insertions_fst c _ _ _, hout, hinsertions⟩, hstderr, ?_⟩
  have hfailed : (annotate c (resolveSymbol k) (.initial ⟨[], state⟩) (lines input)).errors ≠ 0 ↔
      ∃ a ∈ (answers k c input state).1, a.2.1 < 0 := by
    rw [herrors, List.countP_map, Int.natCast_ne_zero, ← Nat.pos_iff_ne_zero, List.countP_pos_iff]
    simp only [Function.comp_apply, decide_eq_true_eq]
  by_cases hany : ∃ a ∈ (answers k c input state).1, a.2.1 < 0
  · rw [if_pos hany]
    exact if_pos (hfailed.mpr hany)
  · rw [if_neg hany]
    exact if_neg (mt hfailed.mp hany)

/-! ## The program -/

theorem commandLine_iff (args : List CStr) (o : Options) :
    parse args .initial = .run o ↔ ∃ items, CommandLine items args ∧ o = meaning items := by
  rw [(parse_accepts args).1]
  constructor
  · rintro ⟨items, hacceptable, hargs, huseful, rfl⟩
    exact ⟨items, ⟨hacceptable, hargs, huseful⟩, rfl⟩
  · rintro ⟨items, ⟨hacceptable, hargs, huseful⟩, rfl⟩
    exact ⟨items, hacceptable, hargs, huseful, rfl⟩

/-- The program annotates the log that a command line is for, unless it cannot be opened; it prints the
help when it is asked to, and otherwise the usage. -/
theorem program_exits (args : List CStr) (state : κ) :
    (∃ items, CommandLine items args ∧
      ((∃ input, logs.log (meaning items).logPath = .ok input ∧
        (main k logs args state).Annotates k (meaning items).config input state) ∨
      ∃ path, logs.log (meaning items).logPath = .error path ∧
        main k logs args state = ⟨1, [], logs.perror path.bytes, ⟨[], state⟩⟩)) ∨
    (AsksHelp args ∧ main k logs args state = ⟨0, usageText, [], ⟨[], state⟩⟩) ∨
    ((¬ ∃ items, CommandLine items args) ∧ ¬ AsksHelp args ∧
      main k logs args state = ⟨2, [], usageText, ⟨[], state⟩⟩) := by
  have haccepts := commandLine_iff args
  have hhelps := (parse_accepts args).2
  unfold main
  cases hparse : parse args .initial with
  | usage =>
    right; right
    refine ⟨?_, fun hhelp => ?_, rfl⟩
    · rintro ⟨items, hitems⟩
      cases hparse.symm.trans ((haccepts _).mpr ⟨items, hitems, rfl⟩)
    · cases hparse.symm.trans (hhelps.mpr hhelp)
  | help => exact .inr (.inl ⟨hhelps.mp hparse, rfl⟩)
  | run o =>
    left
    obtain ⟨items, hitems, rfl⟩ := (haccepts o).mp hparse
    refine ⟨items, hitems, ?_⟩
    dsimp only
    cases hlog : logs.log (meaning items).logPath with
    | ok input => exact .inl ⟨input, rfl, annotateLog_annotates k _ input state⟩
    | error path => exact .inr ⟨path, rfl, rfl⟩

/-- Whatever the log and the system do, the program leaves no pipe, stream or child behind, and runs only
the tools of its command line, on its ELFs. -/
theorem program_tended {items : List Argument} {args : List CStr} (hitems : CommandLine items args)
    (state : κ) : (toolContract (meaning items).config).Holds (· = .none)
      (main k logs args state).tools.events := by
  have hparse := (commandLine_iff args (meaning items)).mpr ⟨items, hitems, rfl⟩
  unfold main
  rw [hparse]
  dsimp only
  cases logs.log (meaning items).logPath with
  | error path => exact Contract.holds_nil rfl
  | ok input =>
    unfold annotateLog
    dsimp only
    rw [readLoop_eq]
    exact annotate_tended k _ state (lines input)

/-- A system on which every call succeeds, and the child prints a symbol. -/
def willingSystem : System Unit where
  call c u := match c with
    | .pipe => (some (3, 4), u)
    | .actionsInit | .fdopen _ => (true, u)
    | .spawn .. => (some (100 : Int), u)
    | .fgets .. => (some (literal "main\n"), u)
    | .waitpid _ => (some (0 : Word), u)
    | .actionsDestroy | .close _ | .fclose _ => ((), u)

def gameElf : CStr := .ofBuffer (literal "game.elf")

/-- A command line for an EE exception, that is read from the standard input. -/
theorem program_tended_ee :
    let logs : Logs := ⟨literal "EE Exception handler:\nEPC 00123456\n", fun _ => none, id⟩
    (toolContract (meaning [.ee gameElf]).config).Holds (· = .none)
      (main willingSystem logs [.ofBuffer (literal "--ee"), gameElf] ()).tools.events := by
  intro logs
  have hitems : CommandLine [.ee gameElf] [.ofBuffer (literal "--ee"), gameElf] := by
    refine ⟨⟨?_, Nat.zero_le 64, Nat.zero_le 1⟩, rfl, .inl nofun⟩
    intro argument hargument
    rw [List.eq_of_mem_singleton hargument]
    trivial
  exact program_tended willingSystem logs hitems ()

end Symbolize

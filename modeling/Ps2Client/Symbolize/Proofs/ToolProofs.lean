import Mathlib.Data.Set.Lattice
import Ps2Client.CMemory.Proofs.NumbersProofs
import Ps2Client.History.Proofs.ContractProofs
import Ps2Client.Symbolize.Program

/-!
# Proofs: the resolver of ps2symbolize

The address that the tool is given, and that the resolver keeps its contract.
-/

namespace Symbolize

open CMemory History

/-! ## The address -/

theorem hexDigit_value {n : Nat} (hn : n < 16) : digitValue (hexDigit n) = n := by
  have hall : ∀ n : Fin 16, digitValue (hexDigit n) = n := by decide
  exact hall ⟨n, hn⟩

theorem hexDigits_digits (width n : Nat) : ∀ d ∈ hexDigits width n, isDigitOf 16 d = true := by
  induction width generalizing n with
  | zero => exact nofun
  | succ width ih =>
    intro d hd
    rcases List.mem_append.mp hd with hd | hd
    · exact ih _ d hd
    · rw [List.eq_of_mem_singleton hd, isDigitOf, hexDigit_value (Nat.mod_lt n (by decide))]
      exact decide_eq_true (Nat.mod_lt n (by decide))

theorem hexDigits_numeral (width n : Nat) : numeral 16 (hexDigits width n) = n % 16 ^ width := by
  induction width generalizing n with
  | zero => exact (Nat.mod_one n).symm
  | succ width ih =>
    rw [hexDigits, numeral_concat, ih, hexDigit_value (Nat.mod_lt n (by decide)), Nat.pow_succ,
      Nat.mul_comm (16 ^ width), Nat.mod_mul]
    omega

theorem hexDigits_ne_nil (width n : Nat) : hexDigits (width + 1) n ≠ [] := by
  rw [hexDigits]
  exact List.append_ne_nil_of_right_ne_nil _ (List.cons_ne_nil _ _)

/-- The tool is given the address. -/
theorem constant_formatPc (pc : Word) : constant (formatPc pc) = some pc.toNat := by
  have hdigits := hexDigits_digits 8 pc.toNat
  have hvalue : numeral 16 (hexDigits 8 pc.toNat) = pc.toNat := by
    rw [hexDigits_numeral]
    exact Nat.mod_eq_of_lt pc.isLt
  have hnonempty : hexDigits 8 pc.toNat ≠ [] := hexDigits_ne_nil 7 pc.toNat
  unfold formatPc
  generalize hexDigits 8 pc.toNat = ds at hdigits hvalue hnonempty
  cases ds with
  | nil => exact absurd rfl hnonempty
  | cons d ds =>
    have hhex : hexPrefix (literal "0x" ++ d :: ds) = true := hdigits d List.mem_cons_self
    have hsplit : splitBase (literal "0x" ++ d :: ds) = (16, d :: ds) := if_pos hhex
    unfold constant
    rw [hsplit]
    dsimp only
    rw [if_pos ⟨hnonempty, List.all_eq_true.mpr hdigits⟩, hvalue]

/-! ## The contract -/

/-- The state is `S`, with two different ends of a pipe. -/
def Piped (input output : Int) (S s : Resources) : Prop := input ≠ output ∧ s = S

section Contract

variable {κ : Type} {k : System κ} {c : Config} {t : Tools κ} {input output pid : Int} {S S' : Resources}

theorem piped_perform {call : SystemCall}
    (hS : (toolContract c).Holds (Piped input output S) t.events)
    (hcall : input ≠ output → S.Guarantees c ⟨call, (k.perform t call).1⟩ ∧
      S.next ⟨call, (k.perform t call).1⟩ = S') :
    (toolContract c).Holds (Piped input output S') (k.perform t call).2.events := by
  refine hS.snoc ?_
  rintro s ⟨hne, rfl⟩ -
  obtain ⟨hguarantee, hnext⟩ := hcall hne
  exact ⟨hguarantee, hne, hnext⟩

theorem conclude_holds (printed : List Byte)
    (ht : (toolContract c).Holds (Piped input output ⟨∅, ∅, ∅, false, {pid}⟩) t.events) :
    (toolContract c).Holds (Piped input output .none) (conclude k pid printed t).2.events := by
  have hwait : (toolContract c).Holds (Piped input output .none) (k.waitpid t pid).2.events := by
    refine piped_perform ht fun _ => ⟨⟨rfl, rfl, rfl⟩, ?_⟩
    show Resources.mk ∅ ∅ ∅ false ({pid} \ {pid}) = _
    rw [Set.sdiff_self]
    rfl
  unfold conclude
  dsimp only
  split
  · exact hwait
  · split <;> exact hwait

theorem readTool_holds
    (ht : (toolContract c).Holds (Piped input output ⟨{input}, ∅, ∅, false, {pid}⟩) t.events) :
    (toolContract c).Holds (Piped input output .none) (readTool k pid input t).2.events := by
  unfold readTool
  dsimp only
  split
  · rename_i hfail
    have hstream : (k.fdopen t input).1 = false := (Bool.not_eq_true' _).mp hfail
    have hopen : (toolContract c).Holds (Piped input output ⟨{input}, ∅, ∅, false, {pid}⟩)
        (k.fdopen t input).2.events := by
      refine piped_perform ht fun _ => ⟨⟨rfl, id⟩, ?_⟩
      show Resources.next _ ⟨.fdopen input, (k.fdopen t input).1⟩ = _
      rw [hstream]
      rfl
    have hclose : (toolContract c).Holds (Piped input output ⟨∅, ∅, ∅, false, {pid}⟩)
        (k.close (k.fdopen t input).2 input).events := by
      refine piped_perform hopen fun _ => ⟨⟨.inl rfl, id⟩, ?_⟩
      show Resources.mk ({input} \ {input}) (∅ \ {input}) ∅ false {pid} = _
      rw [Set.sdiff_self, Set.empty_sdiff]
    refine piped_perform hclose fun _ => ⟨⟨rfl, rfl, rfl⟩, ?_⟩
    show Resources.mk ∅ ∅ ∅ false ({pid} \ {pid}) = _
    rw [Set.sdiff_self]
    rfl
  · rename_i hsome
    have hstream : (k.fdopen t input).1 = true :=
      Bool.eq_true_of_not_eq_false fun hnone => hsome ((Bool.not_eq_true' _).mpr hnone)
    have hopen : (toolContract c).Holds (Piped input output ⟨{input}, ∅, {input}, false, {pid}⟩)
        (k.fdopen t input).2.events := by
      refine piped_perform ht fun _ => ⟨⟨rfl, id⟩, ?_⟩
      show Resources.next _ ⟨.fdopen input, (k.fdopen t input).1⟩ = _
      rw [hstream]
      show Resources.mk {input} ∅ (insert input ∅) false {pid} = _
      rw [insert_empty_eq]
    have hread : (toolContract c).Holds (Piped input output ⟨{input}, ∅, {input}, false, {pid}⟩)
        (k.fgets (k.fdopen t input).2 input 1024).2.events :=
      piped_perform hopen fun _ => ⟨⟨rfl, rfl⟩, rfl⟩
    refine conclude_holds _ (piped_perform hread fun _ => ⟨rfl, ?_⟩)
    show Resources.mk ({input} \ {input}) ∅ ({input} \ {input}) false {pid} = _
    rw [Set.sdiff_self]

/-- After the spawn, whether there is a child or not. -/
theorem spawned_holds {children : Set Int}
    (ht : (toolContract c).Holds (Piped input output ⟨{input}, {output}, ∅, true, children⟩) t.events) :
    (toolContract c).Holds (Piped input output ⟨{input}, ∅, ∅, false, children⟩)
      (k.close (k.actionsDestroy t) output).events := by
  have hdestroy : (toolContract c).Holds
      (Piped input output ⟨{input}, {output}, ∅, false, children⟩) (k.actionsDestroy t).events :=
    piped_perform ht fun _ => ⟨rfl, rfl⟩
  refine piped_perform hdestroy fun hne => ⟨⟨.inr rfl, id⟩, ?_⟩
  show Resources.mk ({input} \ {output}) ({output} \ {output}) ∅ false children = _
  rw [Set.sdiff_self, Set.sdiff_singleton_eq_self fun heq => hne (Set.mem_singleton_iff.mp heq).symm]

theorem runTool_holds {call : Call} (hcall : c.Configured call)
    (ht : (toolContract c).Holds (Piped input output ⟨{input}, {output}, ∅, false, ∅⟩) t.events) :
    (toolContract c).Holds (Piped input output .none) (runTool k call input output t).2.events := by
  unfold runTool
  dsimp only
  split
  · rename_i hfail
    have hinit : (k.actionsInit t).1 = false := (Bool.not_eq_true' _).mp hfail
    have hkept : (toolContract c).Holds (Piped input output ⟨{input}, {output}, ∅, false, ∅⟩)
        (k.actionsInit t).2.events := by
      refine piped_perform ht fun _ => ⟨rfl, ?_⟩
      show Resources.next _ ⟨.actionsInit, (k.actionsInit t).1⟩ = _
      rw [hinit]
      rfl
    have hclose : (toolContract c).Holds (Piped input output ⟨∅, {output}, ∅, false, ∅⟩)
        (k.close (k.actionsInit t).2 input).events := by
      refine piped_perform hkept fun hne => ⟨⟨.inl rfl, id⟩, ?_⟩
      show Resources.mk ({input} \ {input}) ({output} \ {input}) ∅ false ∅ = _
      rw [Set.sdiff_self, Set.sdiff_singleton_eq_self fun heq => hne (Set.mem_singleton_iff.mp heq)]
    refine piped_perform hclose fun _ => ⟨⟨.inr rfl, id⟩, ?_⟩
    show Resources.mk (∅ \ {output}) ({output} \ {output}) ∅ false ∅ = _
    rw [Set.sdiff_self, Set.empty_sdiff]
    rfl
  · rename_i hsome
    have hinit : (k.actionsInit t).1 = true :=
      Bool.eq_true_of_not_eq_false fun hnone => hsome ((Bool.not_eq_true' _).mpr hnone)
    have hactions : (toolContract c).Holds (Piped input output ⟨{input}, {output}, ∅, true, ∅⟩)
        (k.actionsInit t).2.events := by
      refine piped_perform ht fun _ => ⟨rfl, ?_⟩
      show Resources.next _ ⟨.actionsInit, (k.actionsInit t).1⟩ = _
      rw [hinit]
      rfl
    have hargs : Resources.Guarantees c ⟨{input}, {output}, ∅, true, ∅⟩
        ⟨.spawn call.tool.bytes (toolArgv call) input output,
          (k.spawn (k.actionsInit t).2 call (toolArgv call) input output).1⟩ :=
      ⟨rfl, rfl, rfl, call, hcall, rfl, formatPc call.pc, constant_formatPc call.pc, rfl⟩
    split
    · rename_i hpid
      have hspawn : (toolContract c).Holds (Piped input output ⟨{input}, {output}, ∅, true, ∅⟩)
          (k.spawn (k.actionsInit t).2 call (toolArgv call) input output).2.events := by
        refine piped_perform hactions fun _ => ⟨hargs, ?_⟩
        rw [show (k.perform (k.actionsInit t).2 _).1 = _ from hpid]
        rfl
      refine piped_perform (spawned_holds hspawn) fun _ => ⟨⟨.inl rfl, id⟩, ?_⟩
      show Resources.mk ({input} \ {input}) (∅ \ {input}) ∅ false ∅ = _
      rw [Set.sdiff_self, Set.empty_sdiff]
      rfl
    · rename_i pid hpid
      have hspawn : (toolContract c).Holds (Piped input output ⟨{input}, {output}, ∅, true, {pid}⟩)
          (k.spawn (k.actionsInit t).2 call (toolArgv call) input output).2.events := by
        refine piped_perform hactions fun _ => ⟨hargs, ?_⟩
        rw [show (k.perform (k.actionsInit t).2 _).1 = _ from hpid]
        show Resources.mk {input} {output} ∅ true (insert pid ∅) = _
        rw [insert_empty_eq]
      exact readTool_holds (spawned_holds hspawn)

/-- A call of the resolver leaves nothing behind. -/
theorem resolveSymbol_holds {call : Call} (hcall : c.Configured call)
    (ht : (toolContract c).Holds (· = .none) t.events) :
    (toolContract c).Holds (· = .none) (resolveSymbol k t call).2.events := by
  unfold resolveSymbol
  dsimp only
  split
  · rename_i hends
    refine ht.stutter fun s hs => ⟨trivial, ?_⟩
    rw [show (k.call .pipe t.state).1 = _ from hends]
    rfl
  · rename_i input output hends
    refine (runTool_holds hcall ?_).mono fun s hs => hs.2
    refine ht.snoc ?_
    rintro s rfl hassumed
    rw [show (k.call .pipe t.state).1 = _ from hends] at hassumed ⊢
    refine ⟨trivial, hassumed.1, ?_⟩
    show Resources.mk (insert input ∅) (insert output ∅) ∅ false ∅ = _
    rw [insert_empty_eq, insert_empty_eq]

end Contract

end Symbolize

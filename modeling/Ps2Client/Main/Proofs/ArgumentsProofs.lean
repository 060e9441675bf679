import Ps2Client.Main.Operands
import Ps2Client.Ps2link.Proofs.CommandsProofs

/-!
# Proofs: the arguments of `execiop` and `execee`
-/

namespace Main

open CMemory Network Utility

/-! ## The two lengths -/

theorem argumentsLength_cons (a : CStr) (argv : List CStr) :
    argumentsLength (a :: argv) = min a.length 257 + 1 + argumentsLength argv := by
  rw [argumentsLength, List.map_cons, List.sum_cons, argumentsLength]

theorem argumentsLength_le (argv : List CStr) : argumentsLength argv ≤ (joined argv).length := by
  induction argv with
  | nil => exact Nat.le_refl 0
  | cons a argv ih =>
    rw [argumentsLength_cons, joined_length_cons]
    omega

/-- The bound on each length does not matter: an argument that reaches it is too long alone. -/
theorem argumentsLength_eq {argv : List CStr} (h : argumentsLength argv ≤ 256) :
    argumentsLength argv = (joined argv).length := by
  induction argv with
  | nil => rfl
  | cons a argv ih =>
    rw [argumentsLength_cons] at h
    rw [argumentsLength_cons, joined_length_cons, ih (by omega)]
    omega

theorem argumentsLength_fits (argv : List CStr) :
    argumentsLength argv ≤ 256 ↔ (joined argv).length ≤ 256 := by
  constructor
  · intro h
    rw [← argumentsLength_eq h]
    exact h
  · intro h
    exact Nat.le_trans (argumentsLength_le argv) h

/-! ## The packet -/

theorem fixArgv_zero_iff {destination : List Byte} (argv : List CStr) :
    (fixArgv destination 256 argv).1 = 0 ↔ (joined argv).length ≤ 256 := by
  rw [fixArgv_result]
  by_cases hfit : (joined argv).length ≤ 256
  · simp [hfit]
  · simp [hfit]

theorem fixArgv_negative_iff {destination : List Byte} (argv : List CStr) :
    (fixArgv destination 256 argv).1 < 0 ↔ ¬ (joined argv).length ≤ 256 := by
  rw [fixArgv_result]
  by_cases hfit : (joined argv).length ≤ 256
  · simp [hfit]
  · simp [hfit]

/-- The packet of `execiop` and `execee`, read back. -/
theorem arguments_packet (e : Endian) (number : Word) (stack : List Byte) {argv : List CStr}
    (hfit : (joined argv).length ≤ 256) : ∃ packet rest,
      CMemory.packet e number [.word (.ofNat 32 argv.length), .filled (Ps2link.packArgv argv stack).2]
        stack = packet ∧ packet.length = 266 ∧ (net32 packet 6).toNat = argv.length ∧
      splitStrings (net32 packet 6).toNat (peek packet 10 256) =
        some (argv.map CStr.bytes, rest) ∧ ∀ b ∈ rest, b = 0 := by
  have hpack := Ps2link.packArgv_eq stack hfit
  have hlen : (Ps2link.packArgv argv stack).2.length = 256 := by
    rw [hpack, List.length_append, List.length_replicate]
    omega
  have hcount := length_le_joined argv
  refine ⟨_, List.replicate (256 - (joined argv).length) 0, rfl, ?_, ?_⟩
  · rw [packet_length, sizeof_cons, sizeof_cons, Field.size, Field.size, hlen, sizeof_nil]
  · have hargc : net32 (CMemory.packet e number [.word (.ofNat 32 argv.length),
        .filled (Ps2link.packArgv argv stack).2] stack) 6 = .ofNat 32 argv.length :=
      net32_packet_word e number [] _ _ stack rfl
    have hfield := peek_packet_field e number [.word (.ofNat 32 argv.length)]
      (.filled (Ps2link.packArgv argv stack).2) [] stack rfl
    rw [Field.size, hlen] at hfield
    have hnat : (BitVec.ofNat 32 argv.length).toNat = argv.length := by
      rw [BitVec.toNat_ofNat]
      exact Nat.mod_eq_of_lt (by omega)
    rw [hargc, hnat]
    refine ⟨rfl, ?_, fun b hb => List.eq_of_mem_replicate hb⟩
    refine (congrArg (splitStrings argv.length) (hfield.trans hpack)).trans ?_
    exact splitStrings_joined argv _

theorem argumentsKept {id : CommandId} {argv : List CStr} {c : Ps2link.Command}
    (hcheck : checkOperands id argv = if 256 < argumentsLength argv then none else some (0, 0))
    (hdispatch : ∀ number0 number1, dispatch id argv number0 number1 = some c)
    (hfields : ∀ stack, c.fields stack =
      [.word (.ofNat 32 argv.length), .filled (Ps2link.packArgv argv stack).2])
    (hrefused : ∀ stack, c.refused stack = decide ((Ps2link.packArgv argv stack).1 < 0)) :
    ArgumentsKept id argv where
  accepted_iff := by
    constructor
    · intro haccept destination hlen
      rw [hcheck] at haccept
      rw [fixArgv_zero_iff, ← argumentsLength_fits]
      by_contra hlong
      exact haccept (if_pos (Nat.lt_of_not_le hlong))
    · intro hfix
      have hfit := (fixArgv_zero_iff argv).mp (hfix (List.replicate 256 0) List.length_replicate)
      rw [hcheck, if_neg (Nat.not_lt.mpr ((argumentsLength_fits argv).mpr hfit))]
      exact Option.some_ne_none _
  sent := by
    intro number0 number1 haccept
    have hfit : (joined argv).length ≤ 256 := by
      rw [← argumentsLength_fits]
      by_contra hlong
      rw [hcheck, if_pos (Nat.lt_of_not_le hlong)] at haccept
      cases haccept
    refine ⟨c, hdispatch number0 number1, ?_⟩
    intro e stack s hw
    obtain ⟨packet, rest, hpacket, hread⟩ := arguments_packet e c.number stack hfit
    have haccepted : c.refused stack = false := by
      rw [hrefused, Ps2link.packArgv_result, if_pos hfit]
      rfl
    refine ⟨packet, rest, ?_, hread⟩
    rw [c.call_writable e stack hw haccepted, Ps2link.Command.packet, hfields, hpacket]
  refused := by
    rintro ⟨destination, hlen, hneg⟩ number0 number1
    rw [fixArgv_negative_iff] at hneg
    refine ⟨c, hdispatch number0 number1, ?_⟩
    intro e stack s
    refine c.call_refused e stack s ?_
    rw [hrefused, Ps2link.packArgv_result, if_neg hneg]
    rfl

/-- For every list of arguments, whatever their number and lengths. -/
theorem arguments_kept (argv : List CStr) :
    ArgumentsKept .execiop argv ∧ ArgumentsKept .execee argv := by
  constructor
  · exact argumentsKept rfl (fun _ _ => rfl) (fun _ => rfl) (fun _ => rfl)
  · exact argumentsKept rfl (fun _ _ => rfl) (fun _ => rfl) (fun _ => rfl)

end Main

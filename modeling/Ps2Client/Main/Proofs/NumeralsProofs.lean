import Ps2Client.CMemory.Proofs.NumbersProofs
import Ps2Client.CMemory.Proofs.StructProofs
import Ps2Client.Main.Numerals

/-!
# Proofs: number operands
-/

namespace Main

open CMemory

/-! ## Numerals -/

/-- What `strtoul` makes of an operand, cut to 32 bits. -/
theorem parseNumber_eq (s : CStr) : parseNumber s =
    (constant (magnitude s.bytes)).map fun n => .ofNat 32 (signed (negative s.bytes) n) := by
  cases hn : constant (magnitude s.bytes) with
  | some n =>
    have hne : s.bytes ≠ [] := by
      intro hnil
      rw [hnil] at hn
      cases hn
    have heq := strtoul_some hn
    unfold parseNumber
    rw [heq]
    exact if_neg (by simp [hne])
  | none =>
    by_cases hs : s.bytes = []
    · exact if_pos (.inl hs)
    · exact if_pos (.inr (strtoul_none hs hn))

/-- A hexadecimal numeral begins with a 0. -/
theorem hexPrefix_head {t : List Byte} (h : hexPrefix t = true) : t.head? = some (ascii '0') := by
  rw [hexPrefix, Bool.and_eq_true, Bool.and_eq_true, beq_iff_eq] at h
  exact h.1.1

/-- A numeral starts with a digit. -/
theorem spelled_head {t : List Byte} {n : Nat} (h : spelled t = some n) :
    ∃ b, t.head? = some b ∧ isDigitOf 10 b = true := by
  unfold spelled at h
  split_ifs at h with hhex hall hdec
  · exact ⟨_, hexPrefix_head hhex, by decide⟩
  · cases t with
    | nil => exact absurd rfl hdec.1
    | cons b t => exact ⟨b, rfl, List.all_eq_true.mp hdec.2 b List.mem_cons_self⟩

/-- A text of decimal digits alone is spelled in decimal. -/
theorem spelled_decimal {t : List Byte} (hhex : ¬ hexPrefix t = true) (hne : t ≠ [])
    (hall : ∀ d ∈ t, isDigitOf 10 d = true) : spelled t = some (numeral 10 t) := by
  rw [spelled, if_neg hhex, if_pos ⟨hne, List.all_eq_true.mpr hall⟩]

/-- `strtoul` and the reader agree on hexadecimal numbers and on decimal ones without a leading 0. -/
theorem spelled_of_constant {t : List Byte} {m : Nat} (hm : constant t = some m)
    (hbase : (splitBase t).1 ≠ 8) : spelled t = some m := by
  by_cases hhex : hexPrefix t = true
  · obtain ⟨-, hall, hn⟩ := constant_some (if_pos hhex) hm
    rw [spelled, if_pos hhex, if_pos (List.all_eq_true.mpr hall), hn]
  · have hten : splitBase t = (10, t) := by
      unfold splitBase at hbase ⊢
      rw [if_neg hhex] at hbase ⊢
      split_ifs at hbase ⊢ with hzero
      · exact absurd rfl hbase
      · rfl
    obtain ⟨hne, hall, hn⟩ := constant_some hten hm
    rw [spelled_decimal hhex hne hall, hn]

/-- An octal number is taken for a decimal one by the reader. -/
theorem spelled_of_octal {t : List Byte} {m : Nat} (hm : constant t = some m)
    (hbase : (splitBase t).1 = 8) : spelled t = some (numeral 10 t) ∧ m ≤ numeral 10 t ∧
      (m = numeral 10 t ↔ m < 8) := by
  have hhex : ¬ hexPrefix t = true := by
    intro hhex
    rw [splitBase, if_pos hhex] at hbase
    cases hbase
  have height : splitBase t = (8, t) := by
    unfold splitBase at hbase ⊢
    rw [if_neg hhex] at hbase ⊢
    split_ifs at hbase ⊢ with hzero
    · rfl
    · cases hbase
  obtain ⟨hne, hall, rfl⟩ := constant_some height hm
  refine ⟨spelled_decimal hhex hne ?_, numeral_octal_le t, numeral_octal_eq_iff hall⟩
  intro d hd
  exact isDigitOf_mono (hall d hd) (by decide)

/-! ## The value of an operand -/

theorem signed_false_le (m : Nat) : signed false m ≤ m := by
  rw [signed]
  by_cases hlarge : 2 ^ 64 ≤ m
  · rw [if_pos hlarge]
    omega
  · rw [if_neg hlarge]
    exact Nat.le_refl m

theorem signed_false_eq {m : Nat} (hm : m < 2 ^ 64) : signed false m = m := by
  unfold signed
  rw [if_neg (by omega)]
  rfl

/-- An operand is plain when what `strtoul` makes of it is what is spelled. -/
theorem plain_iff (k : NumberOperand) {s : CStr} {m : Nat}
    (hm : constant (magnitude s.bytes) = some m) :
    k.Plain s ↔
      ∃ n, spelled s.bytes = some n ∧ signed (negative s.bytes) m % 2 ^ k.width = n := by
  have hwidth : 2 ^ k.width ≤ 2 ^ 32 ∧ 8 ≤ 2 ^ k.width := by
    cases k <;> exact ⟨by decide, by decide⟩
  constructor
  · rintro ⟨hmag, m', hm', hfit, hoctal⟩
    rw [hmag, hm'] at hm
    cases hm
    have hvalue : signed (negative s.bytes) m % 2 ^ k.width = m := by
      rw [negative_of_magnitude hmag, signed_false_eq (by omega), Nat.mod_eq_of_lt hfit]
    refine ⟨m, ?_, hvalue⟩
    by_cases hbase : (splitBase s.bytes).1 = 8
    · obtain ⟨hspelled, -, heq⟩ := spelled_of_octal hm' hbase
      rw [hspelled, ← heq.mpr (hoctal hbase)]
    · exact spelled_of_constant hm' hbase
  · rintro ⟨n, hspelled, hvalue⟩
    obtain ⟨b, hhead, hdigit⟩ := spelled_head hspelled
    obtain ⟨hmag, hneg⟩ := magnitude_of_digit hhead hdigit
    rw [hmag] at hm
    rw [hneg] at hvalue
    have hlt : n < 2 ^ k.width := hvalue ▸ Nat.mod_lt _ (by omega)
    have hle : n ≤ m := by
      rw [← hvalue]
      exact Nat.le_trans (Nat.mod_le _ _) (signed_false_le m)
    refine ⟨hmag, m, hm, ?_⟩
    by_cases hbase : (splitBase s.bytes).1 = 8
    · obtain ⟨hten, hten', heq⟩ := spelled_of_octal hm hbase
      rw [hspelled] at hten
      have hsame : m = n := by
        have := Option.some.inj hten
        omega
      refine ⟨by omega, fun _ => heq.mp ?_⟩
      rw [hsame]
      exact Option.some.inj hten
    · rw [spelled_of_constant hm hbase] at hspelled
      cases hspelled
      exact ⟨hlt, fun h => absurd h hbase⟩

/-! ## The operand checks -/

/-- A command line of this operand is accepted when it has enough arguments and they pass the check. -/
theorem prepare_eq {k : NumberOperand} {name : CStr} (hname : name.bytes = k.entry.name)
    (argv : List CStr) : prepare name argv = if argv.length < k.entry.args then none else
      (checkOperands k.entry.id argv).bind fun numbers => some (k.entry.id, numbers) := by
  have hfind : commands.find? (fun c => c.name = name.bytes) = some k.entry := by
    rw [hname]
    cases k <;> rfl
  have hid : k.entry.id ≠ .resetcheck := by
    cases k <;> exact nofun
  unfold prepare
  rw [hfind]
  simp [hid]

/-- `dumpmem` and `writemem` have two numbers, -/
theorem checkOperands_two {id : CommandId} (hid : id = .dumpmem ∨ id = .writemem) (a b : CStr)
    (argv : List CStr) : checkOperands id (a :: b :: argv) =
      (parseNumber a).bind fun n₀ => (parseNumber b).bind fun n₁ => some (n₀, n₁) := by
  rcases hid with rfl | rfl <;> rfl

/-- `startvu`, `stopvu` and `gsexec` have one, -/
theorem checkOperands_one {id : CommandId} (hid : id = .startvu ∨ id = .stopvu ∨ id = .gsexec)
    (a : CStr) (argv : List CStr) :
    checkOperands id (a :: argv) = (parseNumber a).bind fun n₀ => some (n₀, 0) := by
  rcases hid with rfl | rfl | rfl <;> rfl

/-- and so has `dumpreg`, where it is not a name. -/
theorem checkOperands_type {a : CStr} (hnum : a.bytes ∉ regtypes) (argv : List CStr) :
    checkOperands .dumpreg (a :: argv) =
      (parseNumber a).bind fun n₀ => if n₀.toInt < 0 then none else some (n₀, 0) := by
  have hnone : regtypes.idxOf? a.bytes = none := List.idxOf?_eq_none_iff.mpr hnum
  have heq : checkOperands .dumpreg (a :: argv) =
      if parseRegtype a < 0 then none else some (.ofInt 32 (parseRegtype a), 0) := rfl
  rw [heq, parseRegtype, hnone]
  cases parseNumber a with
  | none => rfl
  | some v =>
    rw [Option.bind_some]
    simp

/-- The `unsigned int` that `parse_number` finds. -/
abbrev found (s : CStr) (m : Nat) : Word := .ofNat 32 (signed (negative s.bytes) m)

/-- Two numbers are both accepted, or the command line is rejected. -/
theorem checked_two {k : NumberOperand} (hid : k.entry.id = .dumpmem ∨ k.entry.id = .writemem)
    (hnumbers : k.numbers = 2) (hk : k ≠ .dumpregType) {a b : CStr} {argv : List CStr}
    (hlen : k.entry.args ≤ (a :: b :: argv).length) :
    checkOperands k.entry.id (a :: b :: argv) = none ∧ k.Rejected (a :: b :: argv) ∨
      ∃ m₀ m₁, checkOperands k.entry.id (a :: b :: argv) = some (found a m₀, found b m₁) ∧
        ¬ k.Rejected (a :: b :: argv) ∧ constant (magnitude a.bytes) = some m₀ ∧
        constant (magnitude b.bytes) = some m₁ := by
  rw [checkOperands_two hid, parseNumber_eq, parseNumber_eq]
  cases ha : constant (magnitude a.bytes) with
  | none => exact .inl ⟨rfl, .inr (.inl ⟨a, by simp [hnumbers], ha⟩)⟩
  | some m₀ =>
    cases hb : constant (magnitude b.bytes) with
    | none => exact .inl ⟨rfl, .inr (.inl ⟨b, by simp [hnumbers], hb⟩)⟩
    | some m₁ =>
      refine .inr ⟨m₀, m₁, rfl, ?_, rfl, rfl⟩
      rintro (hshort | ⟨t, ht, hno⟩ | ⟨hdump, -⟩)
      · omega
      · rw [hnumbers] at ht
        rcases List.mem_cons.mp ht with rfl | ht
        · exact absurd (hno.symm.trans ha) nofun
        · rw [List.eq_of_mem_singleton ht] at hno
          exact absurd (hno.symm.trans hb) nofun
      · exact hk hdump

/-- One number is accepted, or the command line is rejected. -/
theorem checked_one {k : NumberOperand}
    (hid : k.entry.id = .startvu ∨ k.entry.id = .stopvu ∨ k.entry.id = .gsexec)
    (hnumbers : k.numbers = 1) (hk : k ≠ .dumpregType) {a : CStr} {argv : List CStr}
    (hlen : k.entry.args ≤ (a :: argv).length) :
    checkOperands k.entry.id (a :: argv) = none ∧ k.Rejected (a :: argv) ∨
      ∃ m, checkOperands k.entry.id (a :: argv) = some (found a m, 0) ∧
        ¬ k.Rejected (a :: argv) ∧ constant (magnitude a.bytes) = some m := by
  rw [checkOperands_one hid, parseNumber_eq]
  cases ha : constant (magnitude a.bytes) with
  | none => exact .inl ⟨rfl, .inr (.inl ⟨a, by simp [hnumbers], ha⟩)⟩
  | some m =>
    refine .inr ⟨m, rfl, ?_, rfl⟩
    rintro (hshort | ⟨t, ht, hno⟩ | ⟨hdump, -⟩)
    · omega
    · rw [hnumbers] at ht
      rw [List.eq_of_mem_singleton ht] at hno
      exact absurd (hno.symm.trans ha) nofun
    · exact hk hdump

/-- The number of `dumpreg` must not be negative, as an `int`. -/
theorem checked_type {a : CStr} (hnum : a.bytes ∉ regtypes) {argv : List CStr}
    (hlen : 2 ≤ (a :: argv).length) :
    checkOperands .dumpreg (a :: argv) = none ∧ NumberOperand.dumpregType.Rejected (a :: argv) ∨
      ∃ m, checkOperands .dumpreg (a :: argv) = some (found a m, 0) ∧
        ¬ NumberOperand.dumpregType.Rejected (a :: argv) ∧
        constant (magnitude a.bytes) = some m := by
  rw [checkOperands_type hnum, parseNumber_eq]
  cases ha : constant (magnitude a.bytes) with
  | none => exact .inl ⟨rfl, .inr (.inl ⟨a, List.mem_cons_self, ha⟩)⟩
  | some m =>
    have hneg : (found a m).toInt < 0 ↔ 2 ^ 31 ≤ signed (negative a.bytes) m % 2 ^ 32 := by
      rw [BitVec.toInt_neg_iff, BitVec.toNat_ofNat]
      omega
    rw [Option.map_some, Option.bind_some]
    by_cases hlarge : (found a m).toInt < 0
    · exact .inl ⟨if_pos hlarge, .inr (.inr ⟨rfl, a, List.mem_cons_self, m, ha, hneg.mp hlarge⟩)⟩
    · refine .inr ⟨m, if_neg hlarge, ?_, rfl⟩
      rintro (hshort | ⟨t, ht, hno⟩ | ⟨-, t, ht, m', hm', hlarge'⟩)
      · exact absurd hlen (Nat.not_le.mpr hshort)
      · rw [List.eq_of_mem_singleton ht] at hno
        exact absurd (hno.symm.trans ha) nofun
      · rw [List.eq_of_mem_singleton ht] at hm' hlarge'
        rw [ha] at hm'
        cases hm'
        exact hlarge (hneg.mpr hlarge')

/-! ## The packets -/

theorem found_toNat (s : CStr) (m : Nat) :
    (found s m).toNat = signed (negative s.bytes) m % 2 ^ 32 := BitVec.toNat_ofNat ..

theorem net32_packet_second (e : Endian) (number w₀ w₁ : Word) (post : List Field) (stack : List Byte) :
    net32 (packet e number (.word w₀ :: .word w₁ :: post) stack) 10 = w₁ :=
  net32_packet_word e number [.word w₀] w₁ post stack rfl

theorem net32_packet_first (e : Endian) (number w₀ : Word) (post : List Field) (stack : List Byte) :
    net32 (packet e number (.word w₀ :: post) stack) 6 = w₀ :=
  net32_packet_word e number [] w₀ post stack rfl

theorem two_of_length {argv : List CStr} (h : 3 ≤ argv.length) : ∃ a b rest, argv = a :: b :: rest := by
  match argv, h with
  | a :: b :: rest, _ => exact ⟨a, b, rest, rfl⟩

/-- Unless it is rejected, the operand is a number behind white space and a sign, and its field has
the low bits of that number. -/
theorem checked (k : NumberOperand) {argv : List CStr} {s : CStr}
    (hlen : k.entry.args ≤ argv.length) (hs : argv[k.index]? = some s)
    (hnum : k = .dumpregType → s.bytes ∉ regtypes) :
    checkOperands k.entry.id argv = none ∧ k.Rejected argv ∨
      ∃ n₀ n₁ c m, checkOperands k.entry.id argv = some (n₀, n₁) ∧
        dispatch k.entry.id argv n₀ n₁ = some c ∧ ¬ k.Rejected argv ∧
        constant (magnitude s.bytes) = some m ∧ ∀ e stack,
          k.field (c.packet e stack) = signed (negative s.bytes) m % 2 ^ k.width := by
  cases k with
  | dumpmemOffset =>
    obtain ⟨a, b, rest, rfl⟩ := two_of_length hlen
    cases hs
    rcases checked_two (k := .dumpmemOffset) (.inl rfl) rfl nofun hlen with
      h | ⟨m₀, m₁, hcheck, hok, hm₀, hm₁⟩
    · exact .inl h
    · refine .inr ⟨_, _, _, m₀, hcheck, rfl, hok, hm₀, fun e stack => ?_⟩
      exact (congrArg BitVec.toNat (net32_packet_first ..)).trans (found_toNat ..)
  | dumpmemSize =>
    obtain ⟨a, b, rest, rfl⟩ := two_of_length hlen
    cases hs
    rcases checked_two (k := .dumpmemSize) (.inl rfl) rfl nofun hlen with
      h | ⟨m₀, m₁, hcheck, hok, hm₀, hm₁⟩
    · exact .inl h
    · refine .inr ⟨_, _, _, m₁, hcheck, rfl, hok, hm₁, fun e stack => ?_⟩
      exact (congrArg BitVec.toNat (net32_packet_second ..)).trans (found_toNat ..)
  | writememOffset =>
    obtain ⟨a, b, rest, rfl⟩ := two_of_length hlen
    cases hs
    rcases checked_two (k := .writememOffset) (.inr rfl) rfl nofun hlen with
      h | ⟨m₀, m₁, hcheck, hok, hm₀, hm₁⟩
    · exact .inl h
    · refine .inr ⟨_, _, _, m₀, hcheck, rfl, hok, hm₀, fun e stack => ?_⟩
      exact (congrArg BitVec.toNat (net32_packet_first ..)).trans (found_toNat ..)
  | writememSize =>
    obtain ⟨a, b, rest, rfl⟩ := two_of_length hlen
    cases hs
    rcases checked_two (k := .writememSize) (.inr rfl) rfl nofun hlen with
      h | ⟨m₀, m₁, hcheck, hok, hm₀, hm₁⟩
    · exact .inl h
    · refine .inr ⟨_, _, _, m₁, hcheck, rfl, hok, hm₁, fun e stack => ?_⟩
      exact (congrArg BitVec.toNat (net32_packet_second ..)).trans (found_toNat ..)
  | startvu =>
    obtain ⟨a, rest, rfl⟩ := List.exists_cons_of_length_pos (Nat.lt_of_lt_of_le Nat.one_pos hlen)
    cases hs
    rcases checked_one (k := .startvu) (.inl rfl) rfl nofun hlen with h | ⟨m, hcheck, hok, hm⟩
    · exact .inl h
    · refine .inr ⟨_, _, _, m, hcheck, rfl, hok, hm, fun e stack => ?_⟩
      exact (congrArg BitVec.toNat (net32_packet_first ..)).trans (found_toNat ..)
  | stopvu =>
    obtain ⟨a, rest, rfl⟩ := List.exists_cons_of_length_pos (Nat.lt_of_lt_of_le Nat.one_pos hlen)
    cases hs
    rcases checked_one (k := .stopvu) (.inr (.inl rfl)) rfl nofun hlen with h | ⟨m, hcheck, hok, hm⟩
    · exact .inl h
    · refine .inr ⟨_, _, _, m, hcheck, rfl, hok, hm, fun e stack => ?_⟩
      exact (congrArg BitVec.toNat (net32_packet_first ..)).trans (found_toNat ..)
  | gsexecSize =>
    obtain ⟨a, rest, rfl⟩ := List.exists_cons_of_length_pos (Nat.lt_of_lt_of_le Nat.two_pos hlen)
    cases hs
    rcases checked_one (k := .gsexecSize) (.inr (.inr rfl)) rfl nofun hlen with
      h | ⟨m, hcheck, hok, hm⟩
    · exact .inl h
    · refine .inr ⟨_, _, _, m, hcheck, rfl, hok, hm, fun e stack => ?_⟩
      have hhalf : ((found s m).setWidth 16).toNat = signed (negative s.bytes) m % 2 ^ 16 := by
        rw [BitVec.toNat_setWidth, found_toNat, Nat.mod_mod_of_dvd _ (by decide)]
      exact (congrArg BitVec.toNat (net16_packet_half e _ [] _ _ stack rfl)).trans hhalf
  | dumpregType =>
    obtain ⟨a, rest, rfl⟩ := List.exists_cons_of_length_pos (Nat.lt_of_lt_of_le Nat.two_pos hlen)
    cases hs
    rcases checked_type (hnum rfl) hlen with h | ⟨m, hcheck, hok, hm⟩
    · exact .inl h
    · refine .inr ⟨_, _, _, m, hcheck, rfl, hok, hm, fun e stack => ?_⟩
      exact (congrArg BitVec.toNat (net32_packet_first ..)).trans (found_toNat ..)

theorem commandSent_eq (name : CStr) (argv : List CStr) : commandSent name argv =
    (prepare name argv).bind fun p => some (dispatch p.1 argv p.2.1 p.2.2) := rfl

/-- A number operand reaches the wire unchanged exactly when main rejects the arguments or the
operand is plain. -/
theorem number_kept_iff (k : NumberOperand) {name : CStr} {argv : List CStr} {s : CStr}
    (hname : name.bytes = k.entry.name) (hs : argv[k.index]? = some s)
    (hnum : k = .dumpregType → s.bytes ∉ regtypes) :
    k.Kept name argv s ↔ k.Rejected argv ∨ k.Plain s := by
  have hsent := commandSent_eq name argv
  rw [prepare_eq hname] at hsent
  by_cases hshort : argv.length < k.entry.args
  · rw [if_pos hshort] at hsent
    exact iff_of_true ⟨.inl hsent, fun _ _ _ => hsent⟩ (.inl (.inl hshort))
  · rw [if_neg hshort] at hsent
    rcases checked k (Nat.le_of_not_lt hshort) hs hnum with
      ⟨hnone, hrejected⟩ | ⟨n₀, n₁, c, m, hcheck, hdispatch, hok, hm, hfield⟩
    · rw [hnone] at hsent
      exact iff_of_true ⟨.inl hsent, fun _ _ _ => hsent⟩ (.inl hrejected)
    · rw [hcheck] at hsent
      have hsome : commandSent name argv = some (some c) := hsent.trans (congrArg some hdispatch)
      rw [plain_iff k hm]
      constructor
      · rintro ⟨hnone | ⟨c', n, hc', hn, hread⟩, -⟩
        · rw [hsome] at hnone
          cases hnone
        · rw [hsome] at hc'
          cases hc'
          exact .inr ⟨n, hn, (hfield .big []).symm.trans (hread .big [])⟩
      · rintro (hrejected | ⟨n, hn, hvalue⟩)
        · exact absurd hrejected hok
        · refine ⟨.inr ⟨c, n, hsome, hn, fun e stack => (hfield e stack).trans hvalue⟩, ?_⟩
          intro n' hn' hlarge
          rw [hn] at hn'
          cases hn'
          have hlt := Nat.mod_lt (signed (negative s.bytes) m) (Nat.two_pow_pos k.width)
          omega

/-- `startvu 0x1F` sends 31. -/
theorem number_kept_iff_startvu :
    NumberOperand.startvu.Kept ⟨literal "startvu", by decide⟩ [⟨literal "0x1F", by decide⟩]
      ⟨literal "0x1F", by decide⟩ := by
  refine (number_kept_iff .startvu rfl rfl nofun).mpr (.inr ⟨by decide, 31, by decide, by decide, ?_⟩)
  intro h
  exact absurd h (by decide)

/-- `ps2client dumpmem 010 16 a` dumps from address 8. -/
theorem not_number_kept :
    ¬ NumberOperand.dumpmemOffset.Kept ⟨literal "dumpmem", by decide⟩
      [⟨literal "010", by decide⟩, ⟨literal "16", by decide⟩, ⟨literal "a", by decide⟩]
      ⟨literal "010", by decide⟩ := by
  have hsent : commandSent ⟨literal "dumpmem", by decide⟩
      [⟨literal "010", by decide⟩, ⟨literal "16", by decide⟩, ⟨literal "a", by decide⟩] =
      some (some (.dumpmem 8 16 (some ⟨literal "a", by decide⟩))) := by decide
  have hspelled : spelled (literal "010") = some 10 := by decide
  rintro ⟨hnone | ⟨c, n, hc, hn, hread⟩, -⟩
  · rw [hsent] at hnone
    cases hnone
  · rw [hsent] at hc
    cases hc
    rw [hspelled] at hn
    cases hn
    have height : (8 : Word).toNat = 10 :=
      (congrArg BitVec.toNat (net32_packet_first ..)).symm.trans (hread .big [])
    exact absurd height (by decide)

end Main

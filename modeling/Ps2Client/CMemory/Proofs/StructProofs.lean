import Ps2Client.CMemory.Struct
import Ps2Client.CMemory.Proofs.BytesProofs
import Ps2Client.CMemory.Proofs.CStringProofs

/-!
# Proofs: packed structs on the stack
-/

namespace CMemory

variable (e : Endian)

@[simp] theorem sizeof_nil : sizeof [] = 0 := rfl

@[simp] theorem sizeof_cons (f : Field) (fs : List Field) : sizeof (f :: fs) = f.size + sizeof fs :=
  List.sum_cons

@[simp] theorem sizeof_append (fs gs : List Field) : sizeof (fs ++ gs) = sizeof fs + sizeof gs := by
  rw [sizeof, List.map_append, List.sum_append, sizeof, sizeof]

theorem word_size (w : Word) : (Field.word w).size = 4 := rfl

theorem word_store (stack : List Byte) (w : Word) :
    (Field.word w).store e stack = host32 e (htonl e w) := rfl

@[simp] theorem store_length (stack : List Byte) (f : Field) :
    (f.store e stack).length = f.size := by
  cases f with
  | word w => rw [Field.store, host32_htonl, be32_length, Field.size]
  | half w => rw [Field.store, host16_htons, be16_length, Field.size]
  | text s =>
    cases s with
    | none => exact peek_length ..
    | some s => exact snprintf_length (by decide) (peek_length ..)
  | filled bs => rfl
  | unset n => exact peek_length ..

@[simp] theorem structBytes_length (fields : List Field) (stack : List Byte) :
    (structBytes e fields stack).length = sizeof fields := by
  induction fields generalizing stack with
  | nil => rfl
  | cons f fs ih => rw [structBytes, List.length_append, store_length, ih, sizeof_cons]

theorem structBytes_singleton (f : Field) (stack : List Byte) :
    structBytes e [f] stack = f.store e stack := List.append_nil _

/-- Fields behind others are stored where the others end. -/
theorem structBytes_append (fs gs : List Field) (stack : List Byte) :
    structBytes e (fs ++ gs) stack =
      structBytes e fs stack ++ structBytes e gs (stack.drop (sizeof fs)) := by
  induction fs generalizing stack with
  | nil => rfl
  | cons f fs ih =>
    rw [List.cons_append, structBytes, ih, structBytes, List.drop_drop, sizeof_cons,
      List.append_assoc]

/-- A packet is its number, its length and its fields, all in network byte order. -/
theorem packet_eq (number : Word) (fields : List Field) (stack : List Byte) :
    packet e number fields stack = be32 number ++ (be16 (.ofNat 16 (6 + sizeof fields)) ++
      structBytes e fields (stack.drop 6)) := by
  rw [packet, structBytes, structBytes, Field.store, host32_htonl, Field.store, host16_htons,
    List.drop_drop]
  rfl

@[simp] theorem packet_length (number : Word) (fields : List Field) (stack : List Byte) :
    (packet e number fields stack).length = 6 + sizeof fields := by
  rw [packet, structBytes_length, sizeof_cons, sizeof_cons, Field.size, Field.size]
  omega

/-! ## Reading a packet back -/

/-- The number of a packet is read back. -/
theorem net32_packet_number (number : Word) (fields : List Field) (stack : List Byte) :
    net32 (packet e number fields stack) 0 = number := by
  rw [packet_eq]
  exact @net32_be32 [] _ 0 number rfl

/-- So is its length, if it fits 16 bits. -/
theorem net16_packet_length (number : Word) (fields : List Field) (stack : List Byte) :
    net16 (packet e number fields stack) 4 = .ofNat 16 (6 + sizeof fields) := by
  rw [packet_eq]
  exact net16_be16 _ (be32_length number)

/-- The fields of a packet in front of one of them, that field, and what follows it. -/
theorem packet_split (number : Word) (pre : List Field) (f : Field) (post : List Field)
    (stack : List Byte) {off : Nat} (hoff : 6 + sizeof pre = off) :
    ∃ before after, before.length = off ∧
      packet e number (pre ++ f :: post) stack =
        before ++ (f.store e (stack.drop off) ++ after) := by
  refine ⟨be32 number ++ be16 (.ofNat 16 (6 + sizeof (pre ++ f :: post))) ++
    structBytes e pre (stack.drop 6), structBytes e post ((stack.drop off).drop f.size), ?_, ?_⟩
  · simp
    omega
  · rw [packet_eq, structBytes_append, structBytes, List.drop_drop, hoff]
    simp only [List.append_assoc]

/-- A 32-bit field is read back at its offset, -/
theorem net32_packet_word (number : Word) (pre : List Field) (w : Word) (post : List Field)
    (stack : List Byte) {off : Nat} (hoff : 6 + sizeof pre = off) :
    net32 (packet e number (pre ++ .word w :: post) stack) off = w := by
  obtain ⟨before, after, hlen, hsplit⟩ := packet_split e number pre (.word w) post stack hoff
  rw [hsplit, Field.store, host32_htonl]
  exact net32_be32 w hlen

/-- and so is a 16-bit field. -/
theorem net16_packet_half (number : Word) (pre : List Field) (w : Half) (post : List Field)
    (stack : List Byte) {off : Nat} (hoff : 6 + sizeof pre = off) :
    net16 (packet e number (pre ++ .half w :: post) stack) off = w := by
  obtain ⟨before, after, hlen, hsplit⟩ := packet_split e number pre (.half w) post stack hoff
  rw [hsplit, Field.store, host16_htons]
  exact net16_be16 w hlen

theorem peek_append_left {a : List Byte} (pre b : List Byte) {n : Nat} (hn : a.length = n) :
    peek (pre ++ (a ++ b)) pre.length n = a := by
  rw [peek_eq_take_drop (by simp; omega), List.drop_left, List.take_left' hn]

/-- A field of a packet lies at its offset. -/
theorem peek_packet_field (number : Word) (pre : List Field) (f : Field) (post : List Field)
    (stack : List Byte) {off : Nat} (hoff : 6 + sizeof pre = off) :
    peek (packet e number (pre ++ f :: post) stack) off f.size = f.store e (stack.drop off) := by
  obtain ⟨before, after, hlen, hsplit⟩ := packet_split e number pre f post stack hoff
  have hpeek := peek_append_left before after (store_length e (stack.drop off) f)
  rw [hlen] at hpeek
  rw [hsplit]
  exact hpeek

theorem peek_take (m : List Byte) (off : Nat) {n k : Nat} (h : n ≤ k) :
    peek m off n = (peek m off k).take n := by
  obtain ⟨d, rfl⟩ := Nat.exists_eq_add_of_le h
  rw [peek_add, List.take_left' (peek_length ..)]

/-- The field of a string that fits starts with the string and its null. -/
theorem peek_packet_text (number : Word) (pre : List Field) (s : CStr) (post : List Field)
    (stack : List Byte) (hs : s.length ≤ 255) {off : Nat} (hoff : 6 + sizeof pre = off) :
    peek (packet e number (pre ++ .text (some s) :: post) stack) off (s.length + 1) =
      s.bytes ++ [0] := by
  have hfield := peek_packet_field e number pre (.text (some s)) post stack hoff
  have htake : s.bytes.take (256 - 1) = s.bytes := List.take_of_length_le hs
  have hsplit : ∀ rest, s.bytes ++ 0 :: rest = (s.bytes ++ [0]) ++ rest := by
    intro rest
    rw [List.append_assoc]
    rfl
  rw [Field.size, Field.store, snprintf_eq, htake, hsplit] at hfield
  rw [peek_take _ _ (show s.length + 1 ≤ 256 by omega), hfield]
  exact List.take_left' (by simp [CStr.length])

/-- The field of a string that fits. -/
theorem cstr_packet_text (number : Word) (pre : List Field) (s : CStr) (post : List Field)
    (stack : List Byte) (hs : s.length ≤ 255) {off : Nat} (hoff : 6 + sizeof pre = off) :
    cstr (peek (packet e number (pre ++ .text (some s) :: post) stack) off 256) = s.bytes := by
  have hfield := peek_packet_field e number pre (.text (some s)) post stack hoff
  rw [Field.size] at hfield
  rw [hfield]
  exact cstr_snprintf s.noNull (Nat.lt_of_le_of_lt hs (by decide))

/-! ## Packets and what was on the stack -/

@[simp] theorem word_covered (w : Word) : (Field.word w).Covered := trivial

@[simp] theorem half_covered (w : Half) : (Field.half w).Covered := trivial

@[simp] theorem filled_covered (bs : List Byte) : (Field.filled bs).Covered := trivial

/-- A text covers its field if it is there and fills all of it. -/
theorem text_covered (s : Option CStr) :
    (Field.text s).Covered ↔ ∃ t, s = some t ∧ 255 ≤ t.length := Iff.rfl

theorem byteAt_peek (m : List Byte) {i len : Nat} (hi : i < len) :
    byteAt (peek m 0 len) i = byteAt m i := by
  simp [byteAt, peek, hi]

/-- A field whose bytes do not depend on the stack is covered. -/
theorem covered_of_store {f : Field} (h : ∀ stack stack', f.store e stack = f.store e stack') :
    f.Covered := by
  cases f with
  | word w => trivial
  | half w => trivial
  | filled bs => trivial
  | unset n =>
    by_contra hn
    have hsame := congrArg (byteAt · 0) (h [] [1])
    simp only [Field.store] at hsame
    rw [byteAt_peek _ (Nat.pos_of_ne_zero hn), byteAt_peek _ (Nat.pos_of_ne_zero hn)] at hsame
    exact absurd hsame (by decide)
  | text s =>
    cases s with
    | none =>
      have hsame := congrArg (byteAt · 0) (h [] [1])
      simp only [Field.store] at hsame
      rw [byteAt_peek _ (by decide), byteAt_peek _ (by decide)] at hsame
      exact absurd hsame (by decide)
    | some s =>
      refine ⟨s, rfl, ?_⟩
      by_contra hshort
      -- The byte behind the null is that of the stack.
      have hbyte : ∀ stack, byteAt (Field.store e stack (.text (some s))) (s.length + 1) =
          byteAt stack (s.length + 1) := by
        intro stack
        have htake : s.bytes.take (256 - 1) = s.bytes :=
          List.take_of_length_le (show s.length ≤ 255 by omega)
        rw [Field.store, snprintf_eq, htake, CStr.length, byteAt_append_right, byteAt_cons_succ,
          byteAt_drop]
        exact byteAt_peek stack (show s.length + 1 < 256 by omega)
      have hsame := (hbyte []).symm.trans ((congrArg (byteAt · (s.length + 1))
        (h [] (List.replicate (s.length + 1) 0 ++ [1]))).trans (hbyte _))
      have hone := byteAt_append_right (List.replicate (s.length + 1) 0) [1] 0
      rw [List.length_replicate, Nat.add_zero] at hone
      rw [hone] at hsame
      exact absurd hsame (by simp [byteAt])

/-- What is stored of a covered field does not depend on the stack. -/
theorem store_of_covered {f : Field} (h : f.Covered) (stack stack' : List Byte) :
    f.store e stack = f.store e stack' := by
  cases f with
  | word w => rfl
  | half w => rfl
  | filled bs => rfl
  | unset n =>
    cases h
    rfl
  | text s =>
    obtain ⟨t, rfl, ht⟩ := h
    have hfull : (t.bytes.take (256 - 1)).length = 255 := by
      rw [List.length_take]
      exact Nat.min_eq_left ht
    rw [Field.store, Field.store, snprintf_eq, snprintf_eq, hfull,
      List.drop_eq_nil_of_le (by simp), List.drop_eq_nil_of_le (by simp)]

/-- The fields do not depend on the stack exactly when each of them is covered. -/
theorem structBytes_determined_iff (fields : List Field) :
    (∀ stack stack', structBytes e fields stack = structBytes e fields stack') ↔
      ∀ f ∈ fields, f.Covered := by
  constructor
  · intro h
    induction fields with
    | nil => exact fun f hf => absurd hf List.not_mem_nil
    | cons f fs ih =>
      have hsplit : ∀ stack stack', f.store e stack = f.store e stack' ∧
          structBytes e fs (stack.drop f.size) = structBytes e fs (stack'.drop f.size) := by
        intro stack stack'
        exact List.append_inj (h stack stack') (by rw [store_length, store_length])
      intro g hg
      rcases List.mem_cons.mp hg with rfl | hg
      · exact covered_of_store e fun stack stack' => (hsplit stack stack').1
      · refine ih ?_ g hg
        intro stack stack'
        have hrest := (hsplit (List.replicate f.size 0 ++ stack) (List.replicate f.size 0 ++ stack')).2
        rw [List.drop_left' List.length_replicate, List.drop_left' List.length_replicate] at hrest
        exact hrest
  · intro h
    induction fields with
    | nil => exact fun stack stack' => rfl
    | cons f fs ih =>
      intro stack stack'
      rw [structBytes, structBytes, store_of_covered e (h f List.mem_cons_self) stack stack',
        ih (fun g hg => h g (List.mem_cons_of_mem f hg)) (stack.drop f.size) (stack'.drop f.size)]

/-- A packet is determined exactly when each of its fields is covered. -/
theorem packet_determined_iff (number : Word) (fields : List Field) :
    (∀ stack stack', packet e number fields stack = packet e number fields stack') ↔
      ∀ f ∈ fields, f.Covered := by
  refine (structBytes_determined_iff e _).trans ?_
  simp [Field.Covered]

end CMemory

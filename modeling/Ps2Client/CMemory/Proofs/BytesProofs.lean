import Ps2Client.CMemory.Bytes

/-!
# Proofs: byte order

Converting a field that was loaded in the host's byte order by `ntohl` reads it in network byte
order, on either kind of host; storing an `htonl`-converted field writes it in network byte order.
Writing a word in network byte order and reading it back gives the word.
-/

namespace CMemory

/-! ## Words and their bytes -/

@[simp] theorem be32_length (w : Word) : (be32 w).length = 4 := rfl

@[simp] theorem be16_length (w : Half) : (be16 w).length = 2 := rfl

theorem ofBe32_toNat (b₀ b₁ b₂ b₃ : Byte) : (ofBe32 b₀ b₁ b₂ b₃).toNat =
    b₀.toNat * 2 ^ 24 + b₁.toNat * 2 ^ 16 + b₂.toNat * 2 ^ 8 + b₃.toNat := by
  have h0 := b₀.isLt
  have h1 := b₁.isLt
  have h2 := b₂.isLt
  have h3 := b₃.isLt
  rw [ofBe32, BitVec.toNat_ofNat]
  exact Nat.mod_eq_of_lt (by omega)

theorem ofBe16_toNat (b₀ b₁ : Byte) : (ofBe16 b₀ b₁).toNat = b₀.toNat * 2 ^ 8 + b₁.toNat := by
  have h0 := b₀.isLt
  have h1 := b₁.isLt
  rw [ofBe16, BitVec.toNat_ofNat]
  exact Nat.mod_eq_of_lt (by omega)

/-- A word is read back from its bytes. -/
theorem ofBe32_bytes (w : Word) :
    ofBe32 (.ofNat 8 (w.toNat / 2 ^ 24)) (.ofNat 8 (w.toNat / 2 ^ 16))
      (.ofNat 8 (w.toNat / 2 ^ 8)) (.ofNat 8 w.toNat) = w := by
  have hw := w.isLt
  apply BitVec.eq_of_toNat_eq
  rw [ofBe32_toNat]
  simp only [BitVec.toNat_ofNat]
  omega

/-- A half word is read back from its bytes. -/
theorem ofBe16_bytes (w : Half) :
    ofBe16 (.ofNat 8 (w.toNat / 2 ^ 8)) (.ofNat 8 w.toNat) = w := by
  have hw := w.isLt
  apply BitVec.eq_of_toNat_eq
  rw [ofBe16_toNat]
  simp only [BitVec.toNat_ofNat]
  omega

/-- The bytes of a word determine it one by one. -/
theorem ofBe32_inj {a₀ a₁ a₂ a₃ b₀ b₁ b₂ b₃ : Byte} :
    ofBe32 a₀ a₁ a₂ a₃ = ofBe32 b₀ b₁ b₂ b₃ ↔ a₀ = b₀ ∧ a₁ = b₁ ∧ a₂ = b₂ ∧ a₃ = b₃ := by
  constructor
  · intro h
    have h' := congrArg BitVec.toNat h
    rw [ofBe32_toNat, ofBe32_toNat] at h'
    have := a₀.isLt
    have := a₁.isLt
    have := a₂.isLt
    have := a₃.isLt
    have := b₀.isLt
    have := b₁.isLt
    have := b₂.isLt
    have := b₃.isLt
    refine ⟨?_, ?_, ?_, ?_⟩ <;> apply BitVec.eq_of_toNat_eq <;> omega
  · rintro ⟨rfl, rfl, rfl, rfl⟩
    rfl

/-- The bytes of a word put together from four bytes. -/
theorem be32_ofBe32 (b₀ b₁ b₂ b₃ : Byte) : be32 (ofBe32 b₀ b₁ b₂ b₃) = [b₀, b₁, b₂, b₃] := by
  have h : ofBe32 b₀ b₁ b₂ b₃ = ofBe32 b₀ b₁ b₂ b₃ := rfl
  nth_rewrite 1 [← ofBe32_bytes (ofBe32 b₀ b₁ b₂ b₃)] at h
  obtain ⟨h0, h1, h2, h3⟩ := ofBe32_inj.mp h
  rw [be32, h0, h1, h2, h3]

theorem be16_ofBe16 (b₀ b₁ : Byte) : be16 (ofBe16 b₀ b₁) = [b₀, b₁] := by
  have h0 := b₀.isLt
  have h1 := b₁.isLt
  rw [be16, ofBe16_toNat]
  congr 1
  · apply BitVec.eq_of_toNat_eq
    rw [BitVec.toNat_ofNat]
    omega
  · congr 1
    apply BitVec.eq_of_toNat_eq
    rw [BitVec.toNat_ofNat]
    omega

/-! ## Reading and writing memory -/

@[simp] theorem peek_length (m : List Byte) (off len : Nat) : (peek m off len).length = len := by
  simp [peek]

theorem byteAt_append_right (a b : List Byte) (i : Nat) :
    byteAt (a ++ b) (a.length + i) = byteAt b i := by
  simp [byteAt, List.getD_eq_getElem?_getD, List.getElem?_append_right]

theorem byteAt_append_left (a b : List Byte) {i : Nat} (h : i < a.length) :
    byteAt (a ++ b) i = byteAt a i := by
  simp [byteAt, List.getD_eq_getElem?_getD, List.getElem?_append_left h]

theorem byteAt_cons_succ (x : Byte) (m : List Byte) (i : Nat) :
    byteAt (x :: m) (i + 1) = byteAt m i := by
  simp [byteAt]

@[simp] theorem byteAt_cons_zero (x : Byte) (m : List Byte) : byteAt (x :: m) 0 = x := by
  simp [byteAt]

theorem byteAt_drop (m : List Byte) (off i : Nat) : byteAt (m.drop off) i = byteAt m (off + i) := by
  simp [byteAt, List.getD_eq_getElem?_getD, List.getElem?_drop]

/-- Bytes that lie inside the area are read as they are. -/
theorem peek_eq_take_drop {m : List Byte} {off len : Nat} (h : off + len ≤ m.length) :
    peek m off len = (m.drop off).take len := by
  apply List.ext_getElem
  · simp
    omega
  · intro i h1 h2
    simp only [peek_length] at h1
    have hi : off + i < m.length := by omega
    simp [peek, byteAt, List.getD_eq_getElem?_getD, List.getElem?_eq_getElem hi]

/-- A read splits into two adjacent ones. -/
theorem peek_add (m : List Byte) (off a b : Nat) :
    peek m off (a + b) = peek m off a ++ peek m (off + a) b := by
  simp only [peek, List.range_add, List.map_append, List.map_map]
  congr 1
  apply List.map_congr_left
  intro i _
  simp [Nat.add_assoc]

/-- A whole area. -/
theorem peek_drop (m : List Byte) (off len : Nat) : peek (m.drop off) 0 len = peek m off len := by
  simp only [peek, byteAt_drop, Nat.zero_add]

theorem peek_self (m : List Byte) : peek m 0 m.length = m := by
  rw [peek_eq_take_drop (by simp)]
  simp

/-- What was written at an offset inside the area is read back. -/
theorem peek_poke {m : List Byte} {off : Nat} (bs : List Byte) (h : off ≤ m.length) :
    peek (poke m off bs) off bs.length = bs := by
  have hlen : (m.take off).length = off := by simp [h]
  rw [peek_eq_take_drop]
  · rw [poke, List.append_assoc, List.drop_left' hlen, List.take_left' rfl]
  · simp only [poke, List.length_append, hlen]
    omega

/-- Writing `bs` at the start of an area. -/
theorem poke_zero (m bs : List Byte) : poke m 0 bs = bs ++ m.drop bs.length := by
  simp [poke]

theorem poke_append (a b bs : List Byte) :
    poke (a ++ b) a.length bs = a ++ bs ++ b.drop bs.length := by
  rw [poke, List.take_left, ← List.drop_drop, List.drop_left]

/-- A field read in network byte order depends on its four bytes only. -/
theorem net32_congr {m m' : List Byte} {off off' : Nat}
    (h : ∀ i, i < 4 → byteAt m (off + i) = byteAt m' (off' + i)) : net32 m off = net32 m' off' := by
  have h0 := h 0 (by omega)
  have h1 := h 1 (by omega)
  have h2 := h 2 (by omega)
  have h3 := h 3 (by omega)
  simp only [Nat.add_zero] at h0
  rw [net32, net32, h0, h1, h2, h3]

/-- A word written in network byte order is read back wherever it lies. -/
theorem net32_be32 {pre rest : List Byte} {off : Nat} (w : Word) (h : pre.length = off) :
    net32 (pre ++ (be32 w ++ rest)) off = w := by
  subst h
  have h0 := byteAt_append_right pre (be32 w ++ rest) 0
  rw [Nat.add_zero] at h0
  rw [net32, h0, byteAt_append_right, byteAt_append_right, byteAt_append_right]
  simp only [be32, List.cons_append, byteAt_cons_zero, byteAt_cons_succ]
  exact ofBe32_bytes w

/-- A half word written in network byte order is read back wherever it lies. -/
theorem net16_be16 {pre rest : List Byte} {off : Nat} (w : Half) (h : pre.length = off) :
    net16 (pre ++ (be16 w ++ rest)) off = w := by
  subst h
  have h0 := byteAt_append_right pre (be16 w ++ rest) 0
  rw [Nat.add_zero] at h0
  rw [net16, h0, byteAt_append_right]
  simp only [be16, List.cons_append, byteAt_cons_zero, byteAt_cons_succ]
  exact ofBe16_bytes w

/-! ## Conversion between host and network byte order -/

/-- Swapping reverses the bytes of a word. -/
theorem swap32_ofBe32 (b₀ b₁ b₂ b₃ : Byte) : swap32 (ofBe32 b₀ b₁ b₂ b₃) = ofBe32 b₃ b₂ b₁ b₀ := by
  have h := be32_ofBe32 b₀ b₁ b₂ b₃
  simp only [be32, List.cons.injEq, and_true] at h
  obtain ⟨h0, h1, h2, h3⟩ := h
  rw [swap32, h0, h1, h2, h3]

theorem swap16_ofBe16 (b₀ b₁ : Byte) : swap16 (ofBe16 b₀ b₁) = ofBe16 b₁ b₀ := by
  have h := be16_ofBe16 b₀ b₁
  simp only [be16, List.cons.injEq, and_true] at h
  rw [swap16, h.1, h.2]

/-- A converted field is the field in network byte order, whatever the host. -/
theorem ntohl_load32 (e : Endian) (m : List Byte) (off : Nat) :
    ntohl e (load32 e m off) = net32 m off := by
  cases e with
  | big => rfl
  | little => simp only [ntohl, load32, swap32_ofBe32, net32]

theorem ntohs_load16 (e : Endian) (m : List Byte) (off : Nat) :
    ntohs e (load16 e m off) = net16 m off := by
  cases e with
  | big => rfl
  | little => simp only [ntohs, load16, swap16_ofBe16, net16]

/-- A field that was converted before it was stored lies in memory in network byte order. -/
theorem host32_htonl (e : Endian) (w : Word) : host32 e (htonl e w) = be32 w := by
  cases e with
  | big => rfl
  | little => simp only [host32, htonl, swap32, be32_ofBe32]; rfl

theorem host16_htons (e : Endian) (w : Half) : host16 e (htons e w) = be16 w := by
  cases e with
  | big => rfl
  | little => simp only [host16, htons, swap16, be16_ofBe16]; rfl

/-- On a little-endian host an unconverted field is the byte-swapped one. -/
theorem load32_little (m : List Byte) (off : Nat) :
    load32 .little m off = swap32 (net32 m off) := by
  rw [net32, swap32_ofBe32, load32]

/-! ## Conversion to `int` -/

theorem toInt32_of_fits {x : Int} (hlow : -2 ^ 31 ≤ x) (hhigh : x < 2 ^ 31) : toInt32 x = x :=
  BitVec.toInt_ofInt_eq_self (by decide) hlow hhigh

/-- A position past 2^31 is cut to a negative `int`. -/
theorem toInt32_wrap {x : Int} (hlow : -2 ^ 31 ≤ x) (hhigh : x < 2 ^ 31) :
    toInt32 (x + 2 ^ 32) = x := by
  have hwrap : toInt32 (x + 2 ^ 32) = toInt32 x := by
    unfold toInt32
    rw [BitVec.toInt_ofInt, BitVec.toInt_ofInt]
    exact Int.add_bmod_right x (2 ^ 32)
  rw [hwrap, toInt32_of_fits hlow hhigh]

/-- What is left of a number that is not negative. -/
theorem toInt32_eq (x : Int) :
    toInt32 x = if x % 2 ^ 32 < 2 ^ 31 then x % 2 ^ 32 else x % 2 ^ 32 - 2 ^ 32 := by
  unfold toInt32
  rw [BitVec.toInt_ofInt]
  rfl

theorem toInt32_le {x : Int} (h : 0 ≤ x) : toInt32 x ≤ x := by
  rw [toInt32_eq]
  split_ifs <;> omega

theorem toInt32_toInt32 (x : Int) : toInt32 (toInt32 x) = toInt32 x := by
  unfold toInt32
  rw [BitVec.ofInt_toInt]

end CMemory

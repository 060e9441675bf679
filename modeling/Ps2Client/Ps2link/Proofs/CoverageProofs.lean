import Ps2Client.Ps2link.Coverage
import Ps2Client.Ps2link.Proofs.WriteProofs

/-!
# Proofs: which packets are served without looking at earlier ones
-/

namespace Ps2link

open CMemory Network Utility

/-! ## Covered packets -/

/-- A path with its null in the payload is the same whatever stands behind it in the buffer. -/
theorem pathArgument_inBuffer (number : Word) {payload : List Byte} (before : List Byte) {off : Nat}
    (h0 : 0 ∈ payload.drop off) :
    pathArgument (inBuffer number payload before) (6 + off) = hostPath (cstr (payload.drop off)) := by
  have hoff : off ≤ payload.length := by
    by_contra hlt
    rw [List.drop_eq_nil_of_le (by omega)] at h0
    cases h0
  rw [pathArgument, drop_inBuffer, List.drop_append_of_le_length hoff, cstr_append_of_mem h0]

/-- So is an integer that the payload covers. -/
theorem load32_inBuffer (e : Endian) (number : Word) {payload : List Byte} (before : List Byte)
    (off : Nat) (hoff : off + 4 ≤ payload.length) :
    load32 e (inBuffer number payload before) (6 + off) = load32 e payload off := by
  cases e with
  | big => exact net32_inBuffer number before off hoff
  | little => rw [load32_little, load32_little, net32_inBuffer number before off hoff]

/-- A directory descriptor with a byte that is not zero in front of the last one is out of range. -/
theorem net32_out_of_range {m : List Byte} {off i : Nat} (hi : i < 3)
    (hb : byteAt m (off + i) ≠ 0) : 10 ≤ (net32 m off).toNat := by
  have hpos : 0 < (byteAt m (off + i)).toNat := by
    rw [Nat.pos_iff_ne_zero]
    intro h0
    exact hb (BitVec.eq_of_toNat_eq h0)
  rw [net32, ofBe32_toNat]
  obtain rfl | rfl | rfl : i = 0 ∨ i = 1 ∨ i = 2 := by omega
  · rw [Nat.add_zero] at hpos
    omega
  · omega
  · omega

/-- A number from 10 on names no entry. -/
theorem openSlot_out_of_range (table : Fin 10 → Slot) {dd : Word} (hdd : 10 ≤ dd.toNat) :
    openSlot table dd = none := dif_neg (by omega)

/-- The slot a packet names is the same whatever was in memory before. -/
theorem openSlot_inBuffer (number : Word) {payload : List Byte}
    (hcov : 4 ≤ payload.length ∨ ∃ b ∈ payload, b ≠ 0) (table : Fin 10 → Slot)
    (before before' : List Byte) :
    openSlot table (net32 (inBuffer number payload before) 6) =
      openSlot table (net32 (inBuffer number payload before') 6) := by
  by_cases hlen : 4 ≤ payload.length
  · rw [net32_inBuffer number before 0 hlen, net32_inBuffer number before' 0 hlen]
  · obtain ⟨b, hb, hne⟩ := hcov.resolve_left hlen
    obtain ⟨i, hi, rfl⟩ := List.getElem_of_mem hb
    have hbyte : ∀ m, byteAt (inBuffer number payload m) (6 + i) ≠ 0 := by
      intro m
      rw [byteAt_inBuffer number m hi, byteAt, List.getD_eq_getElem?_getD, List.getElem?_eq_getElem hi]
      exact hne
    rw [openSlot_out_of_range table (net32_out_of_range (by omega) (hbyte before)),
      openSlot_out_of_range table (net32_out_of_range (by omega) (hbyte before'))]

/-- What a covered packet asks for does not depend on what was in the buffer before. -/
theorem decode_covered (e : Endian) (number : Word) {k : Kind} {payload : List Byte}
    (hcov : k.Covered payload) (hk : k ≠ .closedir ∧ k ≠ .readdir) (before before' : List Byte) :
    k.decode e (inBuffer number payload before) = k.decode e (inBuffer number payload before') := by
  have hnet : ∀ off, off + 4 ≤ payload.length →
      net32 (inBuffer number payload before) (6 + off) =
        net32 (inBuffer number payload before') (6 + off) := by
    intro off hoff
    rw [net32_inBuffer _ _ off hoff, net32_inBuffer _ _ off hoff]
  have hload : ∀ off, off + 4 ≤ payload.length →
      load32 e (inBuffer number payload before) (6 + off) =
        load32 e (inBuffer number payload before') (6 + off) := by
    intro off hoff
    rw [load32_inBuffer e _ _ off hoff, load32_inBuffer e _ _ off hoff]
  have hpath : ∀ off, 0 ∈ payload.drop off →
      pathArgument (inBuffer number payload before) (6 + off) =
        pathArgument (inBuffer number payload before') (6 + off) := by
    intro off h0
    rw [pathArgument_inBuffer _ _ h0, pathArgument_inBuffer _ _ h0]
  have hfour : 0 ∈ payload.drop 4 → 0 + 4 ≤ payload.length := by
    intro h0
    have hpos := List.length_pos_of_mem h0
    rw [List.length_drop] at hpos
    omega
  generalize inBuffer number payload before = m at hnet hload hpath ⊢
  generalize inBuffer number payload before' = m' at hnet hload hpath ⊢
  cases k with
  | «open» =>
    have hflags := congrArg fixFlags (hnet 0 (hfour hcov))
    exact congrArg₂ Operation.open (hpath 4 hcov) hflags
  | close => exact congrArg Operation.close (hnet 0 hcov)
  | read =>
    have hlen : 8 ≤ payload.length := hcov
    exact congrArg₂ Operation.read (hnet 0 (by omega)) (hnet 4 (by omega))
  | write =>
    have hlen : 8 ≤ payload.length := hcov
    exact congrArg₂ Operation.write (hnet 0 (by omega)) (hnet 4 (by omega))
  | lseek =>
    have hlen : 12 ≤ payload.length := hcov
    have hall : Operation.lseek (net32 m (6 + 0)) (net32 m (6 + 4)) (net32 m (6 + 8)) =
        Operation.lseek (net32 m' (6 + 0)) (net32 m' (6 + 4)) (net32 m' (6 + 8)) := by
      rw [hnet 0 (by omega), hnet 4 (by omega), hnet 8 (by omega)]
    exact hall
  | opendir => exact congrArg Operation.opendir (hpath 4 hcov)
  | closedir => exact absurd rfl hk.1
  | readdir => exact absurd rfl hk.2
  | remove => exact congrArg Operation.remove (hpath 0 hcov)
  | mkdir => exact congrArg₂ Operation.mkdir (hpath 4 hcov) (hload 0 (hfour hcov))
  | rmdir => exact congrArg Operation.rmdir (hpath 0 hcov)
  | getstat => exact congrArg Operation.getstat (hpath 0 hcov)

/-- Numbers that find the same entry do the same. -/
theorem performClosedir_congr {σ : Type} (h : Host σ) (e : Endian) {dd dd' : Word} {s : Client σ}
    (hslot : openSlot s.dd dd = openSlot s.dd dd') :
    performClosedir h e dd s = performClosedir h e dd' s := by
  unfold performClosedir
  rw [hslot]

theorem performReaddir_congr {σ : Type} (h : Host σ) (e : Endian) {dd dd' : Word} {s : Client σ}
    (hslot : openSlot s.dd dd = openSlot s.dd dd') :
    performReaddir h e dd s = performReaddir h e dd' s := by
  unfold performReaddir
  rw [hslot]

/-- What is performed for a covered packet does not depend on what was in memory before. -/
theorem perform_covered {σ : Type} (h : Host σ) (e : Endian) (number : Word) {k : Kind}
    {payload : List Byte} (hcov : k.Covered payload) (before before' : List Byte) (s : Client σ) :
    (k.decode e (inBuffer number payload before)).perform h e s =
      (k.decode e (inBuffer number payload before')).perform h e s := by
  by_cases hk : k ≠ .closedir ∧ k ≠ .readdir
  · rw [decode_covered e number hcov hk before before']
  · have hdir : k = .closedir ∨ k = .readdir := by
      rwa [← not_or, not_not] at hk
    rcases hdir with rfl | rfl
    · have hslot := openSlot_inBuffer number hcov s.dd before before'
      simp only [Kind.decode, Operation.perform]
      exact performClosedir_congr h e hslot
    · have hslot := openSlot_inBuffer number hcov s.dd before before'
      simp only [Kind.decode, Operation.perform]
      exact performReaddir_congr h e hslot

/-- The activity is recorded behind every request that does not crash. -/
theorem serveTurn_client {σ : Type} (h : Host σ) (e : Endian) (packet : List Byte) (s : Client σ) :
    (serveTurn h e packet s).client = if (dispatch h e packet s).2.2.crashed
      then (dispatch h e packet s).2.2 else setActivity h (dispatch h e packet s).2.2 := by
  cases hc : (dispatch h e packet s).2.2.crashed with
  | true => rw [serveTurn_crashed h e hc]; rfl
  | false => rw [serveTurn_live h e hc]; rfl

/-- A covered packet is served alike, whatever was in the buffer before. -/
theorem packetAlone_of_covered {k : Kind} {payload : List Byte} (hlen : payload.length ≤ 512)
    (hcov : k.Covered payload) : PacketAlone k payload := by
  intro σ h e s rest before before' hin
  obtain ⟨a, -, hturn⟩ := requestTurn_packet h e hlen hin
  have hsame : (dispatch h e (inBuffer k.request payload before) (s.arrive a)).2 =
      (dispatch h e (inBuffer k.request payload before') (s.arrive a)).2 := by
    rw [dispatch_operation h e _ (net32_inBuffer_number ..),
      dispatch_operation h e _ (net32_inBuffer_number ..)]
    exact perform_covered h e k.request hcov before before' (s.arrive a)
  rw [hturn before, hturn before', serveTurn_client, serveTurn_client, hsame]
  exact ⟨rfl, rfl⟩

/-! ## Packets that are not covered

Two runs that differ in one byte behind the packet are told apart by the calls they make of a host
on which every call fails. -/

/-- Memory that holds one byte `0xFF`, `j` bytes behind the header. -/
def staleAt (j : Nat) : List Byte := List.replicate (6 + j) 0 ++ [0xFF]

/-- Behind the payload, the buffer has what was there before. -/
theorem byteAt_behind (number : Word) {payload : List Byte} (before : List Byte) {i : Nat}
    (hi : payload.length ≤ i) : byteAt (inBuffer number payload before) (6 + i) =
      byteAt before (6 + i) := by
  obtain ⟨d, rfl⟩ := Nat.exists_eq_add_of_le hi
  rw [← byteAt_drop, ← Nat.add_zero 6, drop_inBuffer, List.drop_zero, byteAt_append_right,
    byteAt_drop, Nat.add_zero, Nat.add_assoc]

/-- The stale buffer has one byte that is not 0, -/
theorem byteAt_staleAt_self (j : Nat) : byteAt (staleAt j) (6 + j) = 0xFF := by
  have hlast := byteAt_append_right (List.replicate (6 + j) 0) [0xFF] 0
  rwa [List.length_replicate] at hlast

/-- and zeros in all other places. -/
theorem byteAt_staleAt {i j : Nat} (hij : i ≠ j) : byteAt (staleAt j) (6 + i) = 0 := by
  unfold staleAt byteAt
  rw [List.getD_eq_getElem?_getD, List.getElem?_append, List.length_replicate]
  split
  · rw [List.getElem?_replicate_of_lt (by omega)]
    rfl
  · rw [List.getElem?_eq_none (by simp; omega)]
    rfl

/-- The stale byte changes the word it is part of, to a greater one. -/
theorem net32_staleAt (number : Word) {payload : List Byte} {off j : Nat}
    (hj : payload.length ≤ j) (hoff : off ≤ j ∧ j < off + 4) :
    (net32 (inBuffer number payload []) (6 + off)).toNat <
      (net32 (inBuffer number payload (staleAt j)) (6 + off)).toNat ∧
    10 ≤ (net32 (inBuffer number payload (staleAt j)) (6 + off)).toNat := by
  have hsame : ∀ i, i ≠ j → byteAt (inBuffer number payload (staleAt j)) (6 + i) =
      byteAt (inBuffer number payload []) (6 + i) := by
    intro i hi
    rcases Nat.lt_or_ge i payload.length with hlt | hge
    · rw [byteAt_inBuffer number _ hlt, byteAt_inBuffer number _ hlt]
    · rw [byteAt_behind number _ hge, byteAt_behind number _ hge, byteAt_staleAt hi]
      rfl
  have hzero : byteAt (inBuffer number payload []) (6 + j) = 0 := by
    rw [byteAt_behind number _ hj]
    rfl
  have hstale : byteAt (inBuffer number payload (staleAt j)) (6 + j) = 0xFF := by
    rw [byteAt_behind number _ hj, byteAt_staleAt_self]
  rw [net32, net32, ofBe32_toNat, ofBe32_toNat]
  simp only [Nat.add_assoc]
  obtain hoff | hoff | hoff | hoff : j = off ∨ j = off + 1 ∨ j = off + 2 ∨ j = off + 3 := by omega
  all_goals
    subst hoff
    rw [hzero, hstale, show (0 : Byte).toNat = 0 from rfl, show (0xFF : Byte).toNat = 255 from rfl]
  · rw [hsame (j + 1) (by omega), hsame (j + 2) (by omega), hsame (j + 3) (by omega)]
    omega
  · rw [hsame off (by omega), hsame (off + 2) (by omega), hsame (off + 3) (by omega)]
    omega
  · rw [hsame off (by omega), hsame (off + 1) (by omega), hsame (off + 3) (by omega)]
    omega
  · rw [hsame off (by omega), hsame (off + 1) (by omega), hsame (off + 2) (by omega)]
    omega

/-- A word behind the packet and the stale byte is zero. -/
theorem net32_behind (number : Word) {payload : List Byte} {off j : Nat}
    (hoff : payload.length ≤ off) (hj : j < off) :
    net32 (inBuffer number payload []) (6 + off) = 0 ∧
      net32 (inBuffer number payload (staleAt j)) (6 + off) = 0 := by
  have hzero : ∀ before, (∀ i, off ≤ i → byteAt before (6 + i) = 0) →
      net32 (inBuffer number payload before) (6 + off) = 0 := by
    intro before hbefore
    have hbyte : ∀ i, byteAt (inBuffer number payload before) (6 + off + i) = 0 := by
      intro i
      rw [Nat.add_assoc, byteAt_behind number before (by omega)]
      exact hbefore _ (by omega)
    have h0 := hbyte 0
    rw [Nat.add_zero] at h0
    rw [net32, h0, hbyte 1, hbyte 2, hbyte 3]
    rfl
  exact ⟨hzero [] fun i _ => rfl, hzero _ fun i hi => byteAt_staleAt (by omega)⟩

/-- In front of nothing a packet is read as it is, with zeros behind it. -/
theorem net32_inBuffer_nil (number : Word) (payload : List Byte) (off : Nat) :
    net32 (inBuffer number payload []) (6 + off) = net32 payload off := by
  refine net32_congr fun i hi => ?_
  rw [Nat.add_assoc]
  rcases Nat.lt_or_ge (off + i) payload.length with hlt | hge
  · exact byteAt_inBuffer number [] hlt
  · rw [byteAt_behind number [] hge, byteAt, byteAt, List.getD_eq_getElem?_getD,
      List.getD_eq_getElem?_getD, List.getElem?_eq_none hge, List.getElem?_nil]

/-- A path that is not terminated in the packet goes on with the stale byte. -/
theorem pathArgument_staleAt (number : Word) {payload : List Byte} {off : Nat}
    (h0 : 0 ∉ payload.drop off) :
    pathArgument (inBuffer number payload []) (6 + off) = hostPath (payload.drop off) ∧
      pathArgument (inBuffer number payload (staleAt (max payload.length off))) (6 + off) =
        hostPath (payload.drop off ++ [0xFF]) := by
  have hbehind : (payload ++ (staleAt (max payload.length off)).drop (6 + payload.length)).drop off =
      payload.drop off ++ [0xFF] := by
    rw [List.drop_append, List.drop_drop, staleAt]
    congr 1
    rw [show 6 + payload.length + (off - payload.length) = 6 + max payload.length off by omega]
    exact List.drop_left' List.length_replicate
  refine ⟨?_, ?_⟩
  · rw [pathArgument, drop_inBuffer, List.drop_nil, List.append_nil, cstr_eq_self h0]
  · rw [pathArgument, drop_inBuffer, hbehind, cstr_eq_self]
    simpa using h0

/-- A byte that is stale shows in the path of the host. -/
theorem hostPath_stale (p : List Byte) :
    0xFF ∈ hostPath (p ++ [0xFF]) ∧ hostPath p ≠ hostPath (p ++ [0xFF]) := by
  have hff : convertByte 0xFF = 0xFF := by decide
  cases p with
  | nil => decide
  | cons c t =>
    rw [List.cons_append, hostPath_cons, hostPath_cons, List.map_append, List.map_singleton, hff]
    by_cases hc : convertByte c = ascii '/'
    · rw [if_pos (show convertByte c = ascii '/' ∧ t ++ [0xFF] ≠ [] from ⟨hc, by simp⟩)]
      refine ⟨by simp, ?_⟩
      by_cases ht : t = []
      · subst ht
        rw [if_neg (by simp), hc]
        decide
      · rw [if_pos ⟨hc, ht⟩]
        simp
    · rw [if_neg (fun h => hc h.1), if_neg (fun h => hc h.1)]
      exact ⟨by simp, by simp⟩

/-! ## Calls of the failing host -/

/-- A client on the failing host that has made no calls yet. -/
structure Fresh (rest : List Byte) (dd : Fin 10 → Slot) (s : Client Unit) : Prop where
  calls : s.calls = []
  dd : s.dd = dd
  incoming : s.sock.incoming = rest

/-- The calls of serving a request of kind `k` that lies in memory. -/
def callsOf (k : Kind) (m : List Byte) (s : Client Unit) : List HostCall :=
  ((k.decode .little m).perform failingHost .little s).2.calls

/-- A packet that calls the host differently over two buffers is not served alike. -/
theorem not_packetAlone {k : Kind} {payload : List Byte} (hlen : payload.length ≤ 512) (j : Nat)
    (rest : List Byte) (dd : Fin 10 → Slot)
    (hdiff : ∀ number s, Fresh rest dd s →
      callsOf k (inBuffer number payload []) s ≠ callsOf k (inBuffer number payload (staleAt j)) s) :
    ¬ PacketAlone k payload := by
  intro halone
  obtain ⟨bytes, hbytes⟩ : ∃ bytes, bytes =
    be32 k.request ++ (be16 (.ofNat 16 (6 + payload.length)) ++ (payload ++ rest)) := ⟨_, rfl⟩
  have hin : (Socket.receiving bytes).incoming = _ := (incoming_receiving bytes).trans hbytes
  obtain ⟨a, ha, hturn⟩ := requestTurn_packet
    (s := { Client.initial () (.receiving bytes) with dd := dd }) failingHost .little hlen hin
  have hcalls := (halone Unit failingHost .little
    { Client.initial () (.receiving bytes) with dd := dd } rest [] (staleAt j) hin).1
  rw [hturn, hturn, serveTurn_client, serveTurn_client, apply_ite Client.calls,
    apply_ite Client.calls] at hcalls
  have hact : ∀ s : Client Unit, (setActivity failingHost s).calls = s.calls := fun s => rfl
  rw [hact, hact, ite_self, ite_self, dispatch_operation _ _ _ (net32_inBuffer_number ..),
    dispatch_operation _ _ _ (net32_inBuffer_number ..)] at hcalls
  refine hdiff k.request _ ?_ hcalls
  exact ⟨rfl, rfl, ha⟩

section

variable {rest : List Byte} {dd : Fin 10 → Slot} {s : Client Unit} (hs : Fresh rest dd s)

include hs

theorem performOpen_head (path : List Byte) (flags : Word) :
    (performOpen failingHost .little path flags s).2.calls.head? =
      some (if path = PING_PATHNAME then .open NULL_DEVICE O_WRONLY 0 else .stat path) := by
  unfold performOpen
  by_cases hping : path = PING_PATHNAME
  · rw [if_pos hping, if_pos hping]
    show (s.calls ++ [_]).head? = _
    rw [hs.calls]
    rfl
  · rw [if_neg hping, if_neg hping]
    dsimp only
    split
    · show (s.calls ++ [_] ++ [_]).head? = _
      rw [hs.calls]
      rfl
    · show (s.calls ++ [_]).head? = _
      rw [hs.calls]
      rfl

/-- A `read` that fails shows its descriptor and its size. -/
theorem performRead_calls (fd size : Word) :
    (performRead failingHost .little fd size s).2.calls =
      [if 65536 < size.toNat then .malloc size.toNat else .read fd.toInt size.toNat] := by
  unfold performRead
  split
  · show s.calls ++ [_] = _
    rw [hs.calls]
    rfl
  · show s.calls ++ [_] = _
    rw [hs.calls]
    rfl

/-- So does a `write`, when its data are there. -/
theorem performWrite_calls (fd size : Word) :
    (performWrite failingHost .little fd size s).2.calls =
      if 65536 < size.toNat then [.malloc size.toNat]
      else if size.toNat ≤ rest.length then [.write fd.toInt (rest.take size.toNat)] else [] := by
  unfold performWrite
  split
  · show s.calls ++ [_] = _
    rw [hs.calls]
    rfl
  · rename_i hbig
    dsimp only
    rw [receiveAndWrite_calls failingHost .little _ _ _ (by omega)]
    show s.calls ++ (if _ ≤ s.sock.incoming.length then [_] else []) = _
    rw [hs.calls, hs.incoming]
    rfl

theorem performClosedir_calls (dd' : Word) :
    (performClosedir failingHost .little dd' s).2.calls =
      match openSlot dd dd' with
      | none => []
      | some (_, dir) => [.closedir dir] := by
  unfold performClosedir
  rw [hs.dd]
  cases openSlot dd dd' with
  | none => exact hs.calls
  | some slot =>
    show s.calls ++ [_] = _
    rw [hs.calls]
    rfl

theorem performReaddir_calls (dd' : Word) :
    (performReaddir failingHost .little dd' s).2.calls =
      match openSlot dd dd' with
      | none => []
      | some (_, dir) => [.readdir dir] := by
  unfold performReaddir
  rw [hs.dd]
  cases openSlot dd dd' with
  | none => exact hs.calls
  | some slot =>
    show s.calls ++ [_] = _
    rw [hs.calls]
    rfl

end

/-! ## One kind after the other -/

/-- A table with an open directory in every slot. -/
def fullTable : Fin 10 → Slot := fun _ => ⟨some [], some 0⟩

/-- A descriptor or a `whence` that is cut short comes from the buffer. -/
theorem not_alone_int {k : Kind} {payload : List Byte} (hlen : payload.length ≤ 512)
    (hk : k = .close ∧ payload.length < 4 ∨ k = .lseek ∧ payload.length < 12) :
    ¬ PacketAlone k payload := by
  refine not_packetAlone hlen payload.length [] fullTable ?_
  intro number s hs heq
  have hne : ∀ off, off ≤ payload.length → payload.length < off + 4 →
      net32 (inBuffer number payload []) (6 + off) ≠
        net32 (inBuffer number payload (staleAt payload.length)) (6 + off) := by
    intro off hle hlt hsame
    have := (net32_staleAt number (Nat.le_refl _) ⟨hle, hlt⟩).1
    rw [hsame] at this
    omega
  rcases hk with ⟨rfl, hshort⟩ | ⟨rfl, hshort⟩
  · have hcalls : ∀ fd : Word, (performClose failingHost .little fd s).2.calls =
        [.close fd.toInt] := by
      intro fd
      unfold performClose
      dsimp only
      split <;> exact congrArg (· ++ [_]) hs.calls
    simp only [callsOf, Kind.decode, Operation.perform, hcalls, List.cons.injEq,
      HostCall.close.injEq, and_true] at heq
    exact hne 0 (Nat.zero_le _) hshort (BitVec.eq_of_toInt_eq heq)
  · have hcalls : ∀ fd offset whence : Word,
        (performLseek failingHost .little fd offset whence s).2.calls =
          [.lseek fd.toInt offset.toNat whence.toInt] := by
      intro fd offset whence
      show s.calls ++ [_] = _
      rw [hs.calls]
      rfl
    simp only [callsOf, Kind.decode, Operation.perform, hcalls, List.cons.injEq,
      HostCall.lseek.injEq, and_true, Int.natCast_inj] at heq
    obtain ⟨hfd, hoffset, hwhence⟩ := heq
    rcases Nat.lt_or_ge payload.length 4 with h4 | h4
    · exact hne 0 (Nat.zero_le _) h4 (BitVec.eq_of_toInt_eq hfd)
    · rcases Nat.lt_or_ge payload.length 8 with h8 | h8
      · exact hne 4 h4 h8 (BitVec.eq_of_toNat_eq hoffset)
      · exact hne 8 h8 hshort (BitVec.eq_of_toInt_eq hwhence)

/-- The calls of two reads are the same only for the same size. -/
theorem read_call_inj {a b : Nat} {f g : Int}
    (h : (if 65536 < a then HostCall.malloc a else .read f a) =
      if 65536 < b then .malloc b else .read g b) : a = b ∧ (a ≤ 65536 → f = g) := by
  split at h
  · split at h
    · injection h with hab
      exact ⟨hab, fun hle => by omega⟩
    · injection h
  · split at h
    · injection h
    · injection h with hfg hab
      exact ⟨hab, fun _ => hfg⟩

theorem not_alone_read {payload : List Byte} (hshort : payload.length < 8) :
    ¬ PacketAlone .read payload := by
  refine not_packetAlone (by omega) payload.length [] fullTable ?_
  intro number s hs heq
  have hop : ∀ m, (Kind.read.decode .little m).perform failingHost .little s =
      performRead failingHost .little (net32 m 6) (net32 m 10) s := fun m => rfl
  rw [callsOf, callsOf, hop, hop, performRead_calls hs, performRead_calls hs,
    List.cons.injEq] at heq
  obtain ⟨hsize, hfd⟩ := read_call_inj heq.1
  rcases Nat.lt_or_ge payload.length 4 with h4 | h4
  · obtain ⟨hzero, -⟩ := net32_behind number (Nat.le_of_lt h4) h4
    have hlt := (net32_staleAt number (Nat.le_refl _) ⟨Nat.zero_le payload.length, h4⟩).1
    rw [hzero] at hfd
    rw [Nat.add_zero, BitVec.eq_of_toInt_eq (hfd (by decide))] at hlt
    exact Nat.lt_irrefl _ hlt
  · have hlt := (net32_staleAt number (Nat.le_refl _) ⟨h4, hshort⟩).1
    rw [hsize] at hlt
    exact Nat.lt_irrefl _ hlt

/-- Two writes of different sizes differ in their calls if the data are just enough for the one. -/
theorem write_calls_ne {a b : Nat} {f g : Int} {rest : List Byte} (hab : a < b)
    (hrest : a ≤ 65536 → rest.length = a) :
    (if 65536 < a then [HostCall.malloc a]
      else if a ≤ rest.length then [.write f (rest.take a)] else []) ≠
    if 65536 < b then [.malloc b]
      else if b ≤ rest.length then [.write g (rest.take b)] else [] := by
  intro h
  split at h
  · rw [if_pos (by omega), List.cons.injEq, HostCall.malloc.injEq] at h
    omega
  · have hlen := hrest (by omega)
    rw [if_pos (by omega)] at h
    split at h
    · rw [List.cons.injEq] at h
      cases h.1
    · rw [if_neg (by omega)] at h
      cases h

theorem not_alone_write {payload : List Byte} (hshort : payload.length < 8) :
    ¬ PacketAlone .write payload := by
  have hop : ∀ (s : Client Unit) m, (Kind.write.decode .little m).perform failingHost .little s =
      performWrite failingHost .little (net32 m 6) (net32 m 10) s := fun s m => rfl
  rcases Nat.lt_or_ge payload.length 4 with h4 | h4
  · refine not_packetAlone (by omega) payload.length [] fullTable ?_
    intro number s hs heq
    obtain ⟨hzero, hzero'⟩ := net32_behind number (Nat.le_of_lt h4) h4
    have hlt := (net32_staleAt number (Nat.le_refl _) ⟨Nat.zero_le payload.length, h4⟩).1
    rw [callsOf, callsOf, hop, hop, performWrite_calls hs, performWrite_calls hs, hzero, hzero',
      if_neg (by decide), if_pos (by decide), if_neg (by decide), if_pos (by decide),
      List.cons.injEq, HostCall.write.injEq] at heq
    rw [Nat.add_zero, BitVec.eq_of_toInt_eq heq.1.1] at hlt
    exact Nat.lt_irrefl _ hlt
  · refine not_packetAlone (by omega) payload.length
      (List.replicate (net32 payload 4).toNat 0) fullTable ?_
    intro number s hs heq
    have hlt := (net32_staleAt number (Nat.le_refl _) ⟨h4, hshort⟩).1
    rw [net32_inBuffer_nil] at hlt
    rw [callsOf, callsOf, hop, hop, performWrite_calls hs, performWrite_calls hs,
      net32_inBuffer_nil number payload 4] at heq
    exact write_calls_ne hlt (fun _ => List.length_replicate) heq

/-- All entries of this table are in use. -/
theorem openSlot_fullTable_zero : openSlot fullTable 0 = some (0, 0) := rfl

/-- A number of a directory that is cut short is completed from the buffer. -/
theorem not_alone_dir {k : Kind} {payload : List Byte} (hk : k = .closedir ∨ k = .readdir)
    (hshort : payload.length < 4) (hzero : ∀ b ∈ payload, b = 0) : ¬ PacketAlone k payload := by
  have hbyte : ∀ i, byteAt payload i = 0 := by
    intro i
    rcases Nat.lt_or_ge i payload.length with hlt | hge
    · rw [byteAt, List.getD_eq_getElem?_getD, List.getElem?_eq_getElem hlt]
      exact hzero _ (List.getElem_mem hlt)
    · rw [byteAt, List.getD_eq_getElem?_getD, List.getElem?_eq_none hge]
      rfl
  have hdd : net32 payload 0 = 0 := by
    rw [net32, hbyte, hbyte, hbyte, hbyte]
    rfl
  refine not_packetAlone (by omega) payload.length [] fullTable ?_
  intro number s hs heq
  have hout := (net32_staleAt number (Nat.le_refl _) ⟨Nat.zero_le payload.length, hshort⟩).2
  have hslot := openSlot_out_of_range fullTable hout
  have hnil := net32_inBuffer_nil number payload 0
  rw [Nat.add_zero] at hslot hnil
  rcases hk with rfl | rfl
  · have hop : ∀ m, (Kind.closedir.decode .little m).perform failingHost .little s =
        performClosedir failingHost .little (net32 m 6) s := fun m => rfl
    rw [callsOf, callsOf, hop, hop, performClosedir_calls hs, performClosedir_calls hs, hslot, hnil,
      hdd, openSlot_fullTable_zero] at heq
    cases heq
  · have hop : ∀ m, (Kind.readdir.decode .little m).perform failingHost .little s =
        performReaddir failingHost .little (net32 m 6) s := fun m => rfl
    rw [callsOf, callsOf, hop, hop, performReaddir_calls hs, performReaddir_calls hs, hslot, hnil,
      hdd, openSlot_fullTable_zero] at heq
    cases heq

/-- The path among the arguments of a call. -/
def pathOf : HostCall → List Byte
  | .open path _ _ | .stat path | .remove path | .mkdir path _ | .rmdir path => path
  | _ => []

/-- A kind of request whose first call names its path, or something else than the path of the other
run. -/
theorem not_alone_path {k : Kind} {payload : List Byte} (hlen : payload.length ≤ 512) (off : Nat)
    (h0 : 0 ∉ payload.drop off) {f : List Byte → List Byte}
    (hf : ∀ p q, 0xFF ∈ q → p ≠ q → f p ≠ f q)
    (hcalls : ∀ s m, Fresh [] fullTable s →
      (callsOf k m s).head?.map pathOf = some (f (pathArgument m (6 + off)))) :
    ¬ PacketAlone k payload := by
  refine not_packetAlone hlen (max payload.length off) [] fullTable ?_
  intro number s hs heq
  obtain ⟨hpath, hpath'⟩ := pathArgument_staleAt number h0
  obtain ⟨hmem, hne⟩ := hostPath_stale (payload.drop off)
  have hheads := hcalls s (inBuffer number payload []) hs
  rw [heq, hcalls s _ hs, hpath, hpath'] at hheads
  exact hf _ _ hmem hne (Option.some.inj hheads).symm

/-- So is a path without a null in an `open`. -/
theorem not_alone_open {payload : List Byte} (hlen : payload.length ≤ 512)
    (h0 : 0 ∉ payload.drop 4) : ¬ PacketAlone .open payload := by
  refine not_alone_path (f := fun p => if p = PING_PATHNAME then NULL_DEVICE else p) hlen 4 h0 ?_ ?_
  · intro p q hq hne
    have hping : q ≠ PING_PATHNAME := by
      rintro rfl
      revert hq
      decide
    have hnull : NULL_DEVICE ≠ q := by
      rintro rfl
      revert hq
      decide
    rw [if_neg hping]
    split
    · exact hnull
    · exact hne
  · intro s m hs
    have hop : (Kind.open.decode .little m).perform failingHost .little s =
        performOpen failingHost .little (pathArgument m 10) (fixFlags (net32 m 6)) s := rfl
    rw [callsOf, hop, performOpen_head hs, Option.map_some]
    split <;> rfl

/-- So is one in every other request with a path. -/
theorem not_alone_name {k : Kind} {payload : List Byte} (hlen : payload.length ≤ 512) (off : Nat)
    (h0 : 0 ∉ payload.drop off)
    (hk : (k = .opendir ∨ k = .mkdir) ∧ off = 4 ∨ (k = .remove ∨ k = .rmdir ∨ k = .getstat) ∧ off = 0) :
    ¬ PacketAlone k payload := by
  refine not_alone_path (f := id) hlen off h0 (fun p q _ hne => hne) ?_
  intro s m hs
  have hhead : ∀ c : HostCall, (s.calls ++ [c]).head?.map pathOf = some (pathOf c) := by
    intro c
    rw [hs.calls]
    rfl
  rcases hk with ⟨rfl | rfl, rfl⟩ | ⟨rfl | rfl | rfl, rfl⟩
  · exact hhead (.stat (pathArgument m 10))
  · exact hhead (.mkdir (pathArgument m 10) (load32 .little m 6))
  · exact hhead (.remove (pathArgument m 6))
  · exact hhead (.rmdir (pathArgument m 6))
  · exact hhead (.stat (pathArgument m 6))

/-- Every packet that is not covered has two buffers that tell it apart. -/
theorem not_alone_of_not_covered {k : Kind} {payload : List Byte} (hlen : payload.length ≤ 512)
    (hcov : ¬ k.Covered payload) : ¬ PacketAlone k payload := by
  cases k with
  | «open» => exact not_alone_open hlen hcov
  | close => exact not_alone_int hlen (.inl ⟨rfl, Nat.lt_of_not_le hcov⟩)
  | read => exact not_alone_read (Nat.lt_of_not_le hcov)
  | write => exact not_alone_write (Nat.lt_of_not_le hcov)
  | lseek => exact not_alone_int hlen (.inr ⟨rfl, Nat.lt_of_not_le hcov⟩)
  | opendir => exact not_alone_name hlen 4 hcov (.inl ⟨.inl rfl, rfl⟩)
  | closedir =>
    obtain ⟨hshort, hzero⟩ := not_or.mp hcov
    exact not_alone_dir (.inl rfl) (by omega) (fun b hb => by_contra fun hne => hzero ⟨b, hb, hne⟩)
  | readdir =>
    obtain ⟨hshort, hzero⟩ := not_or.mp hcov
    exact not_alone_dir (.inr rfl) (by omega) (fun b hb => by_contra fun hne => hzero ⟨b, hb, hne⟩)
  | remove => exact not_alone_name hlen 0 hcov (.inr ⟨.inl rfl, rfl⟩)
  | mkdir => exact not_alone_name hlen 4 hcov (.inl ⟨.inr rfl, rfl⟩)
  | rmdir => exact not_alone_name hlen 0 hcov (.inr ⟨.inr (.inl rfl), rfl⟩)
  | getstat => exact not_alone_name hlen 0 hcov (.inr ⟨.inr (.inr rfl), rfl⟩)

/-- Exactly the covered packets are served without looking at what was in memory before. -/
theorem packetAlone_iff_covered (k : Kind) (payload : List Byte) (hlen : payload.length ≤ 512) :
    PacketAlone k payload ↔ k.Covered payload := by
  refine ⟨fun halone => ?_, packetAlone_of_covered hlen⟩
  by_contra hcov
  exact not_alone_of_not_covered hlen hcov halone

theorem packetAlone_iff_covered_remove :
    PacketAlone .remove [ascii 'a', 0] ↔ Kind.remove.Covered [ascii 'a', 0] :=
  packetAlone_iff_covered .remove [ascii 'a', 0] (by decide)

/-- A request to remove `a` that does not carry the terminator of its path. -/
theorem not_packetAlone_remove : ¬ PacketAlone .remove [ascii 'a'] :=
  not_alone_of_not_covered (by decide) (by show ¬ (0 : Byte) ∈ [ascii 'a']; decide)

end Ps2link

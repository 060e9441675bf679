import Ps2Client.CMemory.Proofs.StructProofs
import Ps2Client.Ps2link.Attributes
import Ps2Client.Ps2link.Proofs.FramingProofs

/-!
# Proofs: the attributes of a file
-/

namespace Ps2link

open CMemory Network Utility

variable {σ : Type} (h : Host σ) (e : Endian)

/-! ## Fields of a response -/

/-- A packet that tells of a file what is in `d`. -/
def Tells (d : Entry) (bs : List Byte) : Prop :=
  ∃ (number : Word) (length : Half) (stack : List Byte) (result : Int) (more : List Byte),
    bs = headerBytes e number length ++ (entryBytes e stack result d ++ more)

section

variable {e} {d : Entry} {bs : List Byte}

/-- A response that tells attributes has all their fields. -/
theorem Tells.length (ht : Tells e d bs) : 50 ≤ bs.length := by
  obtain ⟨number, length, stack, result, more, rfl⟩ := ht
  have hheader : (headerBytes e number length).length = 6 := by rw [headerBytes_eq]; rfl
  rw [List.length_append, List.length_append, entryBytes_length]
  omega

/-- The mode it tells, -/
theorem Tells.mode (ht : Tells e d bs) : net32 bs 10 = d.mode := by
  obtain ⟨number, length, stack, result, more, rfl⟩ := ht
  rw [headerBytes_eq, entryBytes, intBytes_eq]
  simp only [host32_htonl, ← List.append_assoc]
  simp only [List.append_assoc (_ ++ be32 d.mode)]
  rw [List.append_assoc _ (be32 d.mode)]
  exact net32_be32 _ rfl

/-- the lower half of the size, -/
theorem Tells.size (ht : Tells e d bs) : net32 bs 18 = d.size := by
  obtain ⟨number, length, stack, result, more, rfl⟩ := ht
  rw [headerBytes_eq, entryBytes, intBytes_eq]
  simp only [host32_htonl, ← List.append_assoc]
  simp only [List.append_assoc (_ ++ be32 d.size)]
  rw [List.append_assoc _ (be32 d.size)]
  exact net32_be32 _ rfl

/-- and the upper half. -/
theorem Tells.hisize (ht : Tells e d bs) : net32 bs 46 = d.hisize := by
  obtain ⟨number, length, stack, result, more, rfl⟩ := ht
  rw [headerBytes_eq, entryBytes, intBytes_eq]
  simp only [host32_htonl, ← List.append_assoc]
  rw [List.append_assoc _ (be32 d.hisize)]
  refine net32_be32 _ ?_
  simp [timeField_length]

/-- The first byte of the creation time. -/
theorem Tells.ctime (ht : Tells e d bs) {t : List Byte} (htime : d.ctime = some t) :
    byteAt bs 22 = byteAt t 0 := by
  obtain ⟨number, length, stack, result, more, rfl⟩ := ht
  rw [headerBytes_eq, entryBytes, intBytes_eq, htime]
  simp only [host32_htonl, ← List.append_assoc]
  simp only [List.append_assoc (_ ++ timeField stack 22 (some t))]
  rw [List.append_assoc _ (timeField stack 22 (some t))]
  refine (byteAt_append_right _ _ 0).trans ?_
  rw [byteAt_append_left _ _ (by rw [timeField_length]; decide)]
  exact byteAt_peek t (by decide)

end

/-! ## What is sent of a file -/

/-- `a` is sent of a packet that tells what is in `d`, all of it on a connection that takes it. -/
def Sends (sock : Socket) (d : Entry) (a : List Byte) : Prop :=
  ∃ bs, Tells e d bs ∧ a <+: bs ∧ (sock.Writable → a = bs)

/-- Sending a whole packet. -/
theorem send_sends (s₁ : Client σ) {s : Client σ} {d : Entry} {buffer : List Byte} {size : Int}
    (hsock : s₁.sock = s.sock) (ht : Tells e d buffer) (hsize : size.toNat = buffer.length) :
    Sends e s.sock d (answer s (s₁.send buffer size).2) := by
  have hsent : Emitted s.sock (s₁.send buffer size).2.sock buffer := by
    have hemitted := networkSend_emitted s₁.sock buffer hsize
    rw [peek_self] at hemitted
    rw [← hsock]
    exact hemitted
  refine ⟨buffer, ht, ?_, fun hw => answer_eq (hsent.sent_writable hw)⟩
  obtain ⟨t, ht, hpre, -⟩ := hsent.sent
  rw [answer_eq ht]
  exact hpre

/-- A READDIR response sends the attributes of its entry. -/
theorem responseReaddir_sends (result : Int) (d : Entry) (name : List Byte) {s₁ s : Client σ}
    (hsock : s₁.sock = s.sock) :
    Sends e s.sock d (answer s (responseReaddir h e result d (some name) s₁).2) := by
  unfold responseReaddir
  dsimp only
  rw [List.append_assoc]
  refine send_sends e (s₁.uninit h 306).2 hsock ⟨_, _, _, _, _, rfl⟩ ?_
  rw [List.length_append, List.length_append, entryBytes_length,
    snprintf_length (by decide) (peek_length ..), headerBytes_eq]
  rfl

/-- So does a GETSTAT response. -/
theorem responseGetstat_sends (result : Int) (d : Entry) {s₁ s : Client σ}
    (hsock : s₁.sock = s.sock) :
    Sends e s.sock d (answer s (responseGetstat h e result d s₁).2) := by
  unfold responseGetstat
  refine send_sends e (s₁.uninit h 50).2 hsock ?_ ?_
  · exact ⟨RESPONSE_GETSTAT, 50, _, result, [], by rw [List.append_nil]⟩
  · rw [List.length_append, entryBytes_length, headerBytes_eq]
    rfl

/-- A client that has crashed answers nothing. -/
theorem answer_crashed {s₁ s : Client σ} (hsock : s₁.sock = s.sock) :
    answer s { s₁ with crashed := true } = [] := by
  rw [answer, hsock]
  exact List.drop_length ..

/-! ## The two handlers -/

/-- A READDIR of an open directory goes on to the entry. -/
theorem performReaddir_entry {s : Client σ} {dd : Word} {i : Fin 10} {dir : Nat} {name : List Byte}
    (hslot : openSlot s.dd dd = some (i, dir))
    (hname : (h.call (.readdir dir) s.host).1 = some name) :
    performReaddir h e dd s =
      readdirEntry h e (fullName s i name) name (s.call h (.readdir dir)).2 := by
  have hdirent : (s.call h (.readdir dir)).1 = some name := hname
  unfold performReaddir
  rw [hslot]
  dsimp only
  rw [hdirent]
  rfl

/-- `readdir` sends what it converts of the `struct stat`, whether `stat` filled it or not. -/
theorem readdirEntry_sends (tname name : List Byte) (s₁ s : Client σ) (hsock : s₁.sock = s.sock) :
    answer s (readdirEntry h e tname name s₁).2 = [] ∨
      ∃ atime mtime d, convertStat h ((statOrStack h tname s₁).2.uninit h 8).1 atime mtime
          (statOrStack h tname s₁).1 = some d ∧
        Sends e s.sock d (answer s (readdirEntry h e tname name s₁).2) := by
  unfold readdirEntry
  split
  · exact .inl (answer_crashed hsock)
  · dsimp only
    split
    · rename_i d hd
      exact .inr ⟨_, _, d, hd, responseReaddir_sends h e 1 d name hsock⟩
    · exact .inl (answer_crashed hsock)

/-- What `getstat` sends of the result of `stat`. -/
def getstatEntry (stats : Option Stat) : Option Entry :=
  let zero := List.replicate 8 0
  match stats with
  | none => some ⟨0, 0, 0, some zero, some zero, some zero, 0⟩
  | some st => convertStat h zero zero zero st

/-- A GETSTAT sends what was made of the result of `stat`, or nothing. -/
theorem performGetstat_sends (path : List Byte) (s : Client σ) :
    answer s (performGetstat h e path s).2 = [] ∨
      ∃ d, getstatEntry h (h.call (.stat path) s.host).1 = some d ∧
        Sends e s.sock d (answer s (performGetstat h e path s).2) := by
  unfold performGetstat
  dsimp only
  split
  · rename_i hnone
    rw [hnone]
    exact .inr ⟨_, rfl, responseGetstat_sends h e (-1) _ rfl⟩
  · rename_i st hsome
    rw [hsome]
    split
    · rename_i d hd
      exact .inr ⟨d, hd, responseGetstat_sends h e 0 d rfl⟩
    · exact .inl (answer_crashed rfl)

variable (stack : Stack) {s : Client σ}

/-- A READDIR sends what was made of the entry, with the first byte of the time from the stack, or
nothing. -/
theorem readdir_sends {dd : Word} {i : Fin 10} {dir : Nat} {name : List Byte}
    (hslot : openSlot s.dd dd = some (i, dir))
    (hname : (h.call (.readdir dir) s.host).1 = some name) :
    answerOn h e stack (.readdir dd) s = [] ∨
      ∃ atime mtime d, convertStat h (peek (stack.locals.headD []) 0 8) atime mtime
          ((h.call (.stat (fullName s i name)) (h.call (.readdir dir) s.host).2).1.getD stack.stat) =
            some d ∧
        Sends e s.sock d (answerOn h e stack (.readdir dd) s) := by
  have hrun := performReaddir_entry (s := s.onStack stack) h.stacked e hslot hname
  have hsends := readdirEntry_sends h.stacked e (fullName s i name) name
    ((s.onStack stack).call h.stacked (.readdir dir)).2 (s.onStack stack) rfl
  have hanswer : answerOn h e stack (.readdir dd) s = answer (s.onStack stack)
      (readdirEntry h.stacked e (fullName s i name) name
        ((s.onStack stack).call h.stacked (.readdir dir)).2).2 :=
    congrArg (fun r : Int × Client (σ × Stack) => answer (s.onStack stack) r.2) hrun
  rw [hanswer]
  exact hsends

theorem getstat_sends (path : List Byte) :
    answerOn h e stack (.getstat path) s = [] ∨
      ∃ d, getstatEntry h (h.call (.stat path) s.host).1 = some d ∧
        Sends e s.sock d (answerOn h e stack (.getstat path) s) :=
  performGetstat_sends h.stacked e path (s.onStack stack)

/-! ## Attributes -/

/-- What is made of a `stat`: the mode, the lower 32 bits of the size, and no upper half. -/
theorem convertStat_eq {ctime atime mtime : List Byte} {st : Stat} {d : Entry}
    (hd : convertStat h ctime atime mtime st = some d) :
    d.mode = convertMode st.mode ∧ (∃ tm, d.ctime = some (convertTime ctime tm)) ∧
      d.size = st.size.setWidth 32 ∧ d.hisize = 0 := by
  simp only [convertStat, Option.bind_eq_bind, Option.bind_eq_some_iff] at hd
  obtain ⟨c, -, a, -, m, -, hd⟩ := hd
  cases hd
  exact ⟨rfl, ⟨c, rfl⟩, rfl, rfl⟩

/-- A GETSTAT response has a 0 in the first byte of a time. -/
theorem getstatEntry_ctime {stats : Option Stat} {d : Entry} (hd : getstatEntry h stats = some d) :
    ∃ t, d.ctime = some t ∧ byteAt t 0 = 0 := by
  cases stats with
  | none =>
    cases hd
    exact ⟨List.replicate 8 0, rfl, rfl⟩
  | some st =>
    obtain ⟨-, ⟨tm, htime⟩, -⟩ := convertStat_eq h hd
    exact ⟨_, htime, rfl⟩

/-- The attributes in a packet that tells what is in `d`. -/
def Told (d : Entry) (a : List Byte) : Prop := ∃ bs, Tells e d bs ∧ a = peek bs 10 40

section

variable {e} {d : Entry} {a : List Byte}

/-- On a connection that takes it, what is sent is told. -/
theorem Sends.told {sock : Socket} {bs : List Byte} (hsends : Sends e sock d bs)
    (hw : sock.Writable) (ha : attributes bs = some a) : Told e d a := by
  obtain ⟨bs', htells, -, heq⟩ := hsends
  obtain rfl := heq hw
  rw [attributes, if_pos htells.length] at ha
  exact ⟨bs, htells, (Option.some.inj ha).symm⟩

theorem byteAt_attributes (bs : List Byte) {k : Nat} (hk : k < 40) :
    byteAt (peek bs 10 40) k = byteAt bs (10 + k) := by
  rw [← peek_drop, byteAt_peek (bs.drop 10) hk, byteAt_drop]

theorem Told.mode (ht : Told e d a) : net32 a 0 = d.mode := by
  obtain ⟨bs, htells, rfl⟩ := ht
  rw [← htells.mode]
  refine net32_congr fun k hk => ?_
  rw [Nat.zero_add]
  exact byteAt_attributes bs (by omega)

theorem Told.ctime (ht : Told e d a) {t : List Byte} (htime : d.ctime = some t) :
    byteAt a 12 = byteAt t 0 := by
  obtain ⟨bs, htells, rfl⟩ := ht
  rw [byteAt_attributes bs (by decide), htells.ctime htime]

end

/-- The attributes that the ps2 reads in a READDIR response, -/
theorem readdir_told {dd : Word} {i : Fin 10} {dir : Nat} {name a : List Byte}
    (hw : s.sock.Writable) (hslot : openSlot s.dd dd = some (i, dir))
    (hname : (h.call (.readdir dir) s.host).1 = some name)
    (ha : attributes (answerOn h e stack (.readdir dd) s) = some a) :
    ∃ atime mtime d, convertStat h (peek (stack.locals.headD []) 0 8) atime mtime
        ((h.call (.stat (fullName s i name)) (h.call (.readdir dir) s.host).2).1.getD stack.stat) =
          some d ∧ Told e d a := by
  rcases readdir_sends h e stack hslot hname with hnil | ⟨atime, mtime, d, hd, hsends⟩
  · rw [hnil] at ha
    cases ha
  · exact ⟨atime, mtime, d, hd, hsends.told hw ha⟩

/-- and in a GETSTAT response. -/
theorem getstat_told {path a : List Byte} (hw : s.sock.Writable)
    (ha : attributes (answerOn h e stack (.getstat path) s) = some a) :
    ∃ d, getstatEntry h (h.call (.stat path) s.host).1 = some d ∧ Told e d a := by
  rcases getstat_sends h e stack (s := s) path with hnil | ⟨d, hd, hsends⟩
  · rw [hnil] at ha
    cases ha
  · exact ⟨d, hd, hsends.told hw ha⟩

/-- `readdir` and `getstat` never describe an entry alike on every stack: the first byte of a time
is on the stack in the one, and zero in the other. -/
theorem not_describedAlike {s : Client σ} {dd : Word} {i : Fin 10} {dir : Nat} {name : List Byte}
    (hw : s.sock.Writable) (hslot : openSlot s.dd dd = some (i, dir))
    (hname : (h.call (.readdir dir) s.host).1 = some name) :
    ¬ DescribedAlike h e dd i dir name s := by
  intro halike
  let stack : Stack := ⟨⟨0, 0, 0, 0, 0⟩, [[1]]⟩
  obtain ⟨a, hreaddir, hgetstat⟩ := halike stack stack
  obtain ⟨atime, mtime, d, hd, htold⟩ := readdir_told h e stack hw hslot hname hreaddir
  have hw' : (s.call h (.readdir dir)).2.sock.Writable := hw
  obtain ⟨d', hd', htold'⟩ := getstat_told h e stack hw' hgetstat
  obtain ⟨-, ⟨tm, htime⟩, -⟩ := convertStat_eq h hd
  obtain ⟨t, htime', hbyte⟩ := getstatEntry_ctime h hd'
  have hone : byteAt a 12 = 1 := htold.ctime htime
  have hzero : byteAt a 12 = 0 := (htold'.ctime htime').trans hbyte
  rw [hone] at hzero
  cases hzero

/-- A host with the entry `f` in every directory, of which `stat` gives `stats`. -/
def entryHost (stats : Option Stat) : Host Unit :=
  { failingHost with
    call := fun
      | .readdir _, u => (some [ascii 'f'], u)
      | .stat _, u => (stats, u)
      | c, u => (c.failure, u)
    localtime := fun _ => some ⟨126, 6, 1, 12, 30, 0⟩ }

/-- The client with a directory open in slot 0. -/
def readingClient : Client Unit :=
  { Client.initial () (.receiving []) with dd := fun _ => ⟨some [ascii 'd'], some 0⟩ }

theorem not_describedAlike_file :
    ¬ DescribedAlike (entryHost (some ⟨0x81A4, 5, 0, 0, 0⟩)) .little 0 0 0 [ascii 'f'] readingClient :=
  not_describedAlike _ .little List.not_mem_nil rfl rfl

/-- A dangling link: `readdir` tells the mode of a regular file that it finds on the stack, `getstat`
the mode zero. -/
theorem not_describedAlike_link :
    ¬ DescribedAlike (entryHost none) .little 0 0 0 [ascii 'f'] readingClient := by
  intro halike
  obtain ⟨a, hreaddir, hgetstat⟩ := halike ⟨⟨0x81A4, 5, 0, 0, 0⟩, []⟩ ⟨⟨0x81A4, 5, 0, 0, 0⟩, []⟩
  have hw : readingClient.sock.Writable := List.not_mem_nil
  have hslot : openSlot readingClient.dd 0 = some (0, 0) := rfl
  obtain ⟨atime, mtime, d, hd, htold⟩ :=
    readdir_told (entryHost none) .little _ hw hslot rfl hreaddir
  have hw' : (readingClient.call (entryHost none) (.readdir 0)).2.sock.Writable := hw
  obtain ⟨d', hd', htold'⟩ := getstat_told (entryHost none) .little _ hw' hgetstat
  have hmode : net32 a 0 = convertMode 0x81A4 := htold.mode.trans (convertStat_eq _ hd).1
  have hzero : net32 a 0 = 0 := by
    rw [htold'.mode]
    cases hd'
    rfl
  rw [hmode] at hzero
  exact absurd hzero (by decide)

/-! ## Sizes -/

/-- A size is reported right when the two halves that are sent make it up. -/
theorem Tells.reportsSize {d : Entry} {bs a : List Byte} (ht : Tells e d bs) (hpre : a <+: bs)
    (hlen : 50 ≤ a.length) (n : Nat) :
    ReportsSize a n ↔ d.size.toNat + 2 ^ 32 * d.hisize.toNat = n := by
  obtain ⟨more, rfl⟩ := hpre
  have hfield : ∀ off, off + 4 ≤ 50 → net32 a off = net32 (a ++ more) off := fun off hoff =>
    net32_congr fun k hk => (byteAt_append_left a more (by omega)).symm
  rw [ReportsSize, hfield 18 (by decide), hfield 46 (by decide), ht.size, ht.hisize]

/-- The low 32 bits of a size are the size just below 4 GiB. -/
theorem low_eq_iff (size : BitVec 64) :
    (size.setWidth 32).toNat + 2 ^ 32 * (0 : Word).toNat = size.toNat ↔ size.toNat < 2 ^ 32 := by
  have hzero : (0 : Word).toNat = 0 := rfl
  rw [BitVec.toNat_setWidth, hzero, Nat.mul_zero, Nat.add_zero]
  exact ⟨fun h => h ▸ Nat.mod_lt _ (by decide), Nat.mod_eq_of_lt⟩

/-- Both responses tell what is converted of the statistics. -/
theorem describes_sends {op : Operation} {st : Stat} (hop : op.Describes h st s) :
    answerOn h e stack op s = [] ∨
      ∃ ctime atime mtime d, convertStat h ctime atime mtime st = some d ∧
        Sends e s.sock d (answerOn h e stack op s) := by
  cases op with
  | getstat path =>
    rcases getstat_sends h e stack (s := s) path with hnil | ⟨d, hd, hsends⟩
    · exact .inl hnil
    · rw [show (h.call (.stat path) s.host).1 = some st from hop] at hd
      exact .inr ⟨_, _, _, d, hd, hsends⟩
  | readdir dd =>
    obtain ⟨i, dir, name, hslot, hname, hstat⟩ := hop
    rcases readdir_sends h e stack hslot hname with hnil | ⟨atime, mtime, d, hd, hsends⟩
    · exact .inl hnil
    · rw [hstat] at hd
      exact .inr ⟨_, atime, mtime, d, hd, hsends⟩
  | _ => exact hop.elim

/-- What the two fields give of a size. -/
theorem reportsSize_low {op : Operation} {st : Stat} (hop : op.Describes h st s)
    (hsent : 50 ≤ (answerOn h e stack op s).length) (n : Nat) :
    ReportsSize (answerOn h e stack op s) n ↔
      (st.size.setWidth 32).toNat + 2 ^ 32 * (0 : Word).toNat = n := by
  rcases describes_sends h e stack hop with hnil | ⟨ctime, atime, mtime, d, hd, bs, ht, hpre, -⟩
  · rw [hnil] at hsent
    cases hsent
  · obtain ⟨-, -, hlow, hhigh⟩ := convertStat_eq h hd
    rw [ht.reportsSize e hpre hsent, hlow, hhigh]

/-- A response gives the size of a file just when it is less than 4 GiB. -/
theorem reportsSize_iff {op : Operation} {st : Stat} (hop : op.Describes h st s)
    (hsent : 50 ≤ (answerOn h e stack op s).length) :
    ReportsSize (answerOn h e stack op s) st.size.toNat ↔ st.size.toNat < 2 ^ 32 := by
  rw [reportsSize_low h e stack hop hsent]
  exact low_eq_iff st.size

/-- A handler that does not crash sends a whole response. -/
theorem answerOn_length {op : Operation} (hop : 50 ≤ op.kind.responseSize) (hw : s.sock.Writable)
    (hdef : op.Defined h.stacked (s.onStack stack)) : 50 ≤ (answerOn h e stack op s).length := by
  have hkind : op.kind ≠ .read ∧ op.kind ≠ .write := by
    constructor
    · intro hk
      rw [hk] at hop
      exact absurd hop (by decide)
    · intro hk
      rw [hk] at hop
      exact absurd hop (by decide)
  have hans := perform_answered h.stacked e hkind.2 hdef (s.onStack stack).sock.arrivals
  obtain ⟨bs, ⟨fields, data, hbs, hfields, -⟩, hsent⟩ := hans.emitted
  have hanswer : answerOn h e stack op s = bs := answer_eq (hsent.sent_writable hw)
  rw [hanswer, hbs]
  simp only [List.length_append, be32_length, be16_length]
  omega

theorem entryHost_defined (st : Stat) :
    (Operation.readdir 0).Defined (entryHost (some st)).stacked (readingClient.onStack ⟨st, []⟩) := by
  intro i dir name hslot hname
  cases hslot
  cases hname
  have hlen : 3 < 512 := by decide
  exact ⟨hlen, Option.some_ne_none _, Option.some_ne_none _, Option.some_ne_none _⟩

theorem reportsSize_small :
    let st : Stat := ⟨0x81A4, 5, 0, 0, 0⟩
    ReportsSize (answerOn (entryHost (some st)) .little ⟨st, []⟩ (.readdir 0) readingClient) 5 := by
  intro st
  have hop : (Operation.readdir 0).Describes (entryHost (some st)) st readingClient :=
    ⟨0, 0, [ascii 'f'], rfl, rfl, rfl⟩
  refine (reportsSize_iff (entryHost (some st)) .little _ hop ?_).mpr (by decide)
  exact answerOn_length _ .little _ (by decide) List.not_mem_nil (entryHost_defined st)

/-- A file of 4 GiB is told to be empty. -/
theorem not_reportsSize :
    let st : Stat := ⟨0x81A4, 0x100000000, 0, 0, 0⟩
    let bs := answerOn (entryHost (some st)) .little ⟨st, []⟩ (.readdir 0) readingClient
    (Operation.readdir 0).Describes (entryHost (some st)) st readingClient ∧
      st.size.toNat < 2 ^ 63 ∧ 50 ≤ bs.length ∧ ¬ ReportsSize bs st.size.toNat := by
  intro st bs
  have hop : (Operation.readdir 0).Describes (entryHost (some st)) st readingClient :=
    ⟨0, 0, [ascii 'f'], rfl, rfl, rfl⟩
  have hsent : 50 ≤ bs.length :=
    answerOn_length _ .little _ (by decide) List.not_mem_nil (entryHost_defined st)
  refine ⟨hop, by decide, hsent, ?_⟩
  rw [reportsSize_low _ _ _ hop hsent]
  decide

end Ps2link

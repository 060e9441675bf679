import Ps2Client.Ps2link.Seeking
import Ps2Client.Ps2link.Proofs.FramingProofs
import Ps2Client.Ps2link.Proofs.PosixHostProofs

/-!
# Proofs: seeking and reading

The handler of `lseek` takes the offset as an unsigned number, so that the file ends up where it
was asked to exactly when the offset is not negative.
-/

namespace Ps2link

open CMemory Network Utility Posix

/-! ## One seek -/

theorem base_code (whence : Whence) (fs : HostFiles) (f : OpenFile Nat) :
    fs.base f whence.code.toInt = some (whence.base fs f) := by
  cases whence <;> rfl

theorem Whence.base_cases (whence : Whence) {fs : HostFiles} {fd : Int} {f : OpenFile Nat}
    (hread : Readable fs fd f) :
    whence.base fs f = f.position ∨ whence.base fs f < 2 ^ 31 := by
  cases whence with
  | set => exact .inr (Nat.two_pow_pos 31)
  | current => exact .inl rfl
  | «end» => exact .inr hread.short

variable {fs : HostFiles} {fd : Int} {f : OpenFile Nat}

/-- An offset that is not negative. -/
theorem seekDone_nonneg (hread : Readable fs fd f) {base offset : Nat} {whence : Int}
    (hbase : fs.base f whence = some base) :
    SeekDone fd f (base + offset) fs (fs.lseek fd offset whence).2
      (toInt32 (fs.lseek fd offset whence).1) := by
  rw [lseek_eq hread.opened hbase, SeekDone]
  by_cases hmax : OFF_MAX < base + (offset : Int)
  · rw [if_neg (by omega), if_pos (.inr hmax)]
    exact ⟨rfl, rfl⟩
  · rw [if_pos (by omega), if_neg (by omega)]
    exact ⟨rfl, fun hlt => toInt32_of_fits (by omega) hlt⟩

/-- A negative offset is 2^32 more as an unsigned number. -/
theorem seekDone_negative (hread : Readable fs fd f) (whence : Whence) {offset : Int}
    (hneg : offset < 0) (hlow : -2 ^ 31 ≤ offset) :
    SeekDone fd f (whence.base fs f + offset) fs
        (fs.lseek fd (offset + 2 ^ 32) whence.code.toInt).2
        (toInt32 (fs.lseek fd (offset + 2 ^ 32) whence.code.toInt).1) ↔
      whence.base fs f + offset = -1 ∧ f.position = 2 ^ 32 - 1 := by
  have hposition := hread.position
  have hcases := whence.base_cases hread
  rw [lseek_eq hread.opened (base_code whence fs f), SeekDone]
  generalize whence.base fs f = base at hcases ⊢
  have hmax : OFF_MAX = 9223372036854775807 := rfl
  by_cases htarget : 0 ≤ (base : Int) + offset
  · -- The descriptor should move back, and moves forward or not at all.
    rw [if_pos (by omega)]
    refine iff_of_false ?_ (by omega)
    rintro ⟨hmoved, -⟩
    by_cases hover : OFF_MAX < base + (offset + 2 ^ 32)
    · rw [if_pos (.inr hover)] at hmoved
      have hsame := moveTo_inj ((moveTo_self hread.opened).trans hmoved)
      omega
    · rw [if_neg (by omega)] at hmoved
      have hsame := moveTo_inj hmoved
      omega
  · -- The seek should fail, and succeeds.
    rw [if_neg (by omega), if_neg (by omega)]
    have hresult : toInt32 (base + (offset + 2 ^ 32)) = base + offset := by
      rw [← Int.add_assoc]
      exact toInt32_wrap (by omega) (by omega)
    rw [hresult, and_comm]
    refine and_congr_right fun hminus => ?_
    have htwo : (base + (offset + 2 ^ 32)).toNat = 2 ^ 32 - 1 := by omega
    rw [htwo]
    constructor
    · intro hmoved
      exact moveTo_inj ((moveTo_self hread.opened).trans hmoved.symm)
    · intro hposition'
      rw [← hposition', moveTo_self hread.opened]

theorem seekDone_iff (hread : Readable fs fd f) (whence : Whence) (offset : Word) :
    SeekDone fd f (whence.base fs f + offset.toInt) fs
        (fs.lseek fd offset.toNat whence.code.toInt).2
        (toInt32 (fs.lseek fd offset.toNat whence.code.toInt).1) ↔
      0 ≤ offset.toInt ∨ whence.base fs f + offset.toInt = -1 ∧ f.position = 2 ^ 32 - 1 := by
  have hcond := BitVec.toInt_eq_toNat_cond offset
  have hlt := offset.isLt
  by_cases hneg : offset.toInt < 0
  · have hunsigned : (offset.toNat : Int) = offset.toInt + 2 ^ 32 := by omega
    rw [hunsigned, or_iff_right (by omega)]
    exact seekDone_negative hread whence hneg (by omega)
  · have hunsigned : offset.toInt = offset.toNat := by omega
    rw [hunsigned]
    exact iff_of_true (seekDone_nonneg hread (base_code whence fs f)) (.inl (by omega))

/-! ## One turn -/

section

variable {σ : Type} (h : Host σ) (e : Endian)

def FileRequest.operation (fd : Word) : FileRequest → Operation
  | .lseek offset whence => .lseek fd offset whence.code
  | .read size => .read fd size

def FileRequest.kind : FileRequest → Kind
  | .lseek .. => .lseek
  | .read _ => .read

theorem FileRequest.decode (r : FileRequest) (fd number : Word) (packet : List Byte) :
    r.kind.decode e (inBuffer number (r.request fd).payload packet) = r.operation fd := by
  cases r with
  | lseek offset whence =>
    have hfd := @net32_inBuffer_be32 number fd [] (be32 offset ++ be32 whence.code) 0 packet rfl
    have hoffset := @net32_inBuffer_be32 number offset (be32 fd) (be32 whence.code) 4 packet
      (be32_length fd)
    have hwhence := @net32_inBuffer_be32 number whence.code (be32 fd ++ be32 offset) [] 8 packet
      (by simp)
    rw [List.append_nil, List.append_assoc] at hwhence
    show Operation.lseek _ _ _ = .lseek fd offset whence.code
    exact congr (congrArg₂ Operation.lseek hfd hoffset) hwhence
  | read size =>
    have hfd := @net32_inBuffer_be32 number fd [] (be32 size) 0 packet rfl
    have hsize := @net32_inBuffer_be32 number size (be32 fd) [] 4 packet (be32_length fd)
    rw [List.append_nil] at hsize
    exact congrArg₂ Operation.read hfd hsize

/-- The operation of a request only sends its response. -/
theorem FileRequest.responds (r : FileRequest) (fd : Word) (s : Client σ) :
    Responds r.kind s ((r.operation fd).perform h e s).2 := by
  cases r with
  | lseek offset whence =>
    rcases perform_concludes h e (.lseek fd offset whence.code) nofun s with hr | ⟨hdef, -⟩
    · exact hr
    · exact absurd trivial hdef
  | read size =>
    rcases perform_concludes h e (.read fd size) nofun s with hr | ⟨hdef, -⟩
    · exact hr
    · exact absurd trivial hdef

theorem requestTurn_file (r : FileRequest) (fd : Word) {rest : List Byte} (packet : List Byte)
    {s : Client σ} (hlive : s.crashed = false) (hin : s.sock.incoming = (r.request fd).bytes ++ rest) :
    ∃ a packet', arrivedBytes a = rest ∧ requestTurn h e packet s =
      .next packet' (setActivity h ((r.operation fd).perform h e (s.arrive a)).2) := by
  have hnumber : (r.request fd).number = r.kind.request := by cases r <;> rfl
  have hdata : (r.request fd).data = [] := by cases r <;> rfl
  have hlen : (r.request fd).payload.length ≤ 512 := by
    cases r <;> simp [FileRequest.request]
  rw [Request.bytes, hdata, List.append_nil] at hin
  simp only [List.append_assoc] at hin
  obtain ⟨a, ha, hturn⟩ := requestTurn_operation h e hnumber hlen (r.decode e fd _ packet) hin
  obtain ⟨packet', hturn⟩ := hturn ((r.responds h e fd _).crashed.trans hlive)
  exact ⟨a, packet', ha, hturn⟩

/-! ## What a turn does to the file -/

variable {view : σ → HostFiles} (hposix : PosixHost h view)

include hposix in
theorem lseek_turn {fd : Word} (offset : Word) (whence : Whence) {s : Client σ} (a : List Arrival)
    (hread : Readable (view s.host) fd.toInt f) (hw : s.sock.Writable) :
    let s' := setActivity h (performLseek h e fd offset whence.code (s.arrive a)).2
    view s'.host = ((view s.host).lseek fd.toInt offset.toNat whence.code.toInt).2 ∧
      answerResult s s' =
        toInt32 ((view s.host).lseek fd.toInt offset.toNat whence.code.toInt).1 := by
  obtain ⟨hresult, hview⟩ := hposix.lseek offset.toNat whence.code.toInt hread.opened
  have hresponse := answerResult_responseResult e RESPONSE_LSEEK
    (toInt32 (h.call (.lseek fd.toInt offset.toNat whence.code.toInt) s.host).1) s
    ((s.arrive a).call h (.lseek fd.toInt offset.toNat whence.code.toInt)).2 rfl hw
  refine ⟨(hposix.timeMs _).trans hview, ?_⟩
  exact hresponse.trans ((toInt32_toInt32 _).trans (congrArg toInt32 hresult))

/-- The response to a `read` that has got `data`, and the data. -/
theorem readAndSend_answer {fd size : Word} {data : List Byte} {s s₁ : Client σ}
    (hgot : (h.call (.read fd.toInt size.toNat) s₁.host).1 = some data)
    (hlen : data.length < 2 ^ 31) (hsent : s₁.sock.sent = s.sock.sent) (hw : s₁.sock.Writable) :
    answer s (readAndSend h e fd size s₁).2 = readAnswer data := by
  have hresult : readResult (h.call (.read fd.toInt size.toNat) s₁.host).1 = data.length := by
    rw [hgot]
    exact toInt32_of_fits (by omega) (by omega)
  have hfield : intBytes e data.length = be32 (.ofNat 32 data.length) := by
    rw [intBytes_eq, BitVec.ofInt_natCast]
  have hpacket : (14 : Int).toNat =
      (headerBytes e RESPONSE_READ 14 ++ intBytes e data.length ++ intBytes e data.length).length := by
    simp [headerBytes_eq, intBytes_eq]
  let s₂ := (s₁.call h (.read fd.toInt size.toNat)).2
  have hfirst : (responseRead e data.length data.length s₂).2.sock.sent = _ :=
    send_sent s₂ hpacket hw
  have hwritable := send_writable s₂ (headerBytes e RESPONSE_READ 14 ++
    intBytes e data.length ++ intBytes e data.length) 14 hw
  have hsecond := send_sent (responseRead e data.length data.length s₂).2
    (show (data.length : Int).toNat = data.length from Int.toNat_natCast _) hwritable
  refine answer_eq ?_
  unfold readAndSend
  dsimp only
  rw [hresult, hgot]
  refine hsecond.trans ?_
  rw [hfirst]
  show s₁.sock.sent ++ _ ++ _ = _
  rw [hsent, hfield, headerBytes_eq, readAnswer]
  simp only [List.append_assoc]

include hposix in
theorem readAndSend_turn {fd size : Word} {s s₁ : Client σ}
    (hopened : (view s.host).opened fd.toInt = some f) (hreadable : f.readable = true)
    (hfits : size.toNat < 2 ^ 31 ∨ ((view s.host).content f.inode).length < 2 ^ 31)
    (hview : view s₁.host = view s.host) (hsent : s₁.sock.sent = s.sock.sent)
    (hw : s₁.sock.Writable) :
    let s' := setActivity h (readAndSend h e fd size s₁).2
    ∃ n ≤ size.toNat,
      (n = 0 → size.toNat = 0 ∨ ((view s.host).content f.inode).length ≤ f.position) ∧
      answer s s' = readAnswer (((view s.host).content f.inode).drop f.position |>.take n) ∧
      view s'.host = ((view s.host).read fd.toInt n).2 := by
  obtain ⟨n, hn, hzero, hgot, hview'⟩ :=
    hposix.read size.toNat ((congrArg (·.opened fd.toInt) hview).trans hopened) hreadable
  rw [hview] at hzero hgot hview'
  rw [read_eq hopened] at hgot
  have hlen : (((view s.host).content f.inode).drop f.position |>.take n).length < 2 ^ 31 := by
    rw [List.length_take, List.length_drop]
    omega
  exact ⟨n, hn, hzero, readAndSend_answer h e hgot hlen hsent hw, (hposix.timeMs _).trans hview'⟩

include hposix in
/-- A `read` is always served. -/
theorem read_served {fd : Word} (size : Word) {s : Client σ} (a : List Arrival)
    (hread : Readable (view s.host) fd.toInt f) (hw : s.sock.Writable) :
    (FileRequest.read size).Served h view fd f s
      (setActivity h (performRead h e fd size (s.arrive a)).2) := by
  unfold FileRequest.Served performRead
  dsimp only
  split
  · rename_i hbig
    split
    · rename_i hnone
      right
      have hpacket : (14 : Int).toNat =
          (headerBytes e RESPONSE_READ 14 ++ intBytes e (-1) ++ intBytes e (-1)).length := by
        simp [headerBytes_eq, intBytes_eq]
      have hsent := send_sent ((s.arrive a).call h (.malloc size.toNat)).2 hpacket hw
      refine ⟨⟨hbig, hnone⟩, ?_, (hposix.timeMs _).trans (hposix.malloc ..)⟩
      refine answerResult_eq e RESPONSE_READ 14 (-1) (intBytes e (-1)) (hsent.trans ?_)
      rw [List.append_assoc]
    · left
      exact readAndSend_turn h e hposix hread.opened hread.readable (.inr hread.short)
        (hposix.malloc ..) rfl hw
  · left
    exact readAndSend_turn h e hposix hread.opened hread.readable (.inr hread.short) rfl rfl hw

/-! ## Runs -/

theorem Readable.moveTo {fs : HostFiles} {fd : Int} (hread : Readable fs fd f) {position : Nat}
    (hmax : (position : Int) ≤ OFF_MAX) :
    Readable (fs.moveTo fd f position) fd { f with position := position } where
  opened := moveTo_opened ..
  readable := hread.readable
  short := hread.short
  position := hmax

theorem Readable.lseek {fs : HostFiles} {fd : Int} (hread : Readable fs fd f) (offset : Int)
    (whence : Whence) : ∃ f', Readable (fs.lseek fd offset whence.code.toInt).2 fd f' := by
  rw [lseek_eq hread.opened (base_code whence fs f)]
  split
  · exact ⟨f, hread⟩
  · exact ⟨_, hread.moveTo (by omega)⟩

theorem Readable.read {fs : HostFiles} {fd : Int} (hread : Readable fs fd f) (n : Nat) :
    ∃ f', Readable (fs.read fd n).2 fd f' := by
  rw [read_eq hread.opened]
  refine ⟨_, hread.moveTo ?_⟩
  have hshort := hread.short
  have hposition := hread.position
  have hmax : OFF_MAX = 9223372036854775807 := rfl
  rw [List.length_take, List.length_drop]
  omega

include hposix in
/-- The descriptor stays readable. -/
theorem FileRequest.readable (r : FileRequest) {fd : Word} {s : Client σ} (a : List Arrival)
    (hread : Readable (view s.host) fd.toInt f) (hw : s.sock.Writable) :
    ∃ f', Readable
      (view (setActivity h ((r.operation fd).perform h e (s.arrive a)).2).host) fd.toInt f' := by
  cases r with
  | lseek offset whence =>
    have hview := (lseek_turn h e hposix offset whence a hread hw).1
    show ∃ f', Readable (view (setActivity h (performLseek h e fd offset whence.code _).2).host) _ f'
    rw [hview]
    exact hread.lseek offset.toNat whence
  | read size =>
    show ∃ f', Readable (view (setActivity h (performRead h e fd size _).2).host) _ f'
    rcases read_served h e hposix size a hread hw with ⟨n, -, -, -, hview⟩ | ⟨-, -, hview⟩
    · rw [hview]
      exact hread.read n
    · rw [hview]
      exact ⟨f, hread⟩

include hposix in
/-- A request is served as the file asks for exactly when its offset is kept. -/
theorem FileRequest.served_iff (r : FileRequest) {fd : Word} {s : Client σ} (a : List Arrival)
    (hread : Readable (view s.host) fd.toInt f) (hw : s.sock.Writable) :
    r.Served h view fd f s (setActivity h ((r.operation fd).perform h e (s.arrive a)).2) ↔
      OffsetKept view (r.operation fd) s := by
  cases r with
  | lseek offset whence =>
    obtain ⟨hview, hanswer⟩ := lseek_turn h e hposix offset whence a hread hw
    have hiff := seekDone_iff hread whence offset
    rw [← hview, ← hanswer] at hiff
    refine hiff.trans ⟨fun hkept f' base hf' hbase => ?_, fun hkept => ?_⟩
    · cases hread.opened.symm.trans hf'
      cases (base_code whence (view s.host) f).symm.trans hbase
      exact hkept
    · exact hkept f _ hread.opened (base_code whence (view s.host) f)
  | read size => exact iff_of_true (read_served h e hposix size a hread hw) trivial

include hposix in
/-- In a run of `lseek` and `read` requests all of them are served as the file asks for exactly when
no offset changes by being taken as unsigned. -/
theorem positions_kept_iff (fd : Word) (reqs : List FileRequest) (packet rest : List Byte)
    {s : Client σ} (hlive : s.crashed = false) (hw : s.sock.Writable)
    (hread : Readable (view s.host) fd.toInt f)
    (hin : s.sock.incoming = (reqs.map fun r => (r.request fd).bytes).flatten ++ rest) :
    PositionsKept h e view fd reqs packet s ↔
      Along h e (OffsetKept view) (reqs.map (·.request fd)) packet s := by
  induction reqs generalizing packet s f with
  | nil => exact Iff.rfl
  | cons r reqs ih =>
    rw [List.map_cons, List.flatten_cons, List.append_assoc] at hin
    obtain ⟨a, packet', ha, hturn⟩ := requestTurn_file h e r fd packet hlive hin
    have hresponds := r.responds h e fd (s.arrive a)
    have hserved := r.served_iff h e hposix a hread hw
    obtain ⟨f', hread'⟩ := r.readable h e hposix a hread hw
    have hkind : (r.request fd).kind = some r.kind := by cases r <;> rfl
    have hop : (r.request fd).operation e r.kind packet = r.operation fd := r.decode e fd _ packet
    have hw' : ((r.operation fd).perform h e (s.arrive a)).2.sock.Writable := by
      obtain ⟨bs, -, hemitted⟩ := hresponds.emitted
      exact fun hfail => hw (hemitted.outcomes.subset hfail)
    have hin' := (congrArg arrivedBytes hresponds.arrivals).trans ha
    have hrest := ih packet' (s := setActivity h ((r.operation fd).perform h e (s.arrive a)).2)
      (hresponds.crashed.trans hlive) hw' hread' hin'
    constructor
    · rintro ⟨packet₁, s₁, f₁, hturn₁, hf₁, hserved₁, hrest₁⟩
      cases hturn.symm.trans hturn₁
      cases hread.opened.symm.trans hf₁
      refine ⟨fun k hk => ?_, fun packet₂ s₂ hturn₂ => ?_⟩
      · cases hkind.symm.trans hk
        show OffsetKept view ((r.request fd).operation e r.kind packet) s
        rw [hop]
        exact hserved.mp hserved₁
      · cases hturn.symm.trans hturn₂
        exact hrest.mp hrest₁
    · rintro ⟨hkept, hnext⟩
      have hkept' : OffsetKept view ((r.request fd).operation e r.kind packet) s :=
        hkept r.kind hkind
      rw [hop] at hkept'
      exact ⟨packet', _, f, hturn, hread.opened, hserved.mpr hkept', hrest.mpr (hnext _ _ hturn)⟩

end

/-- A file of three bytes, open for reading and writing as descriptor 3. -/
def threeBytes (position : Nat) : HostFiles where
  lookup path := if path = [ascii 'a'] then some 0 else none
  content _ := [1, 2, 3]
  opened fd := if fd = 3 then some ⟨0, position, true, false⟩ else none

theorem threeBytes_readable {position : Nat} (hposition : position < 4) :
    Readable (threeBytes position) 3 ⟨0, position, true, false⟩ where
  opened := rfl
  readable := rfl
  short := by
    show 3 < 2 ^ 31
    decide
  position := by
    show (position : Int) ≤ 9223372036854775807
    omega

/-- Seek to the second byte, and read one. -/
theorem positions_kept_forward :
    let reqs : List FileRequest := [.lseek 1 .set, .read 1]
    let s : Client HostFiles := .initial (threeBytes 0)
      (.receiving ((reqs.map fun r => (r.request 3).bytes).flatten ++ []))
    PositionsKept fileHost .little id 3 reqs [] s := by
  intro reqs s
  have hread : Readable (id s.host) (3 : Word).toInt ⟨0, 0, true, false⟩ :=
    threeBytes_readable (by decide)
  refine (positions_kept_iff (s := s) fileHost .little fileHost_posix 3 reqs [] [] rfl
    List.not_mem_nil hread (incoming_receiving _)).mpr ?_
  refine ⟨fun k hk => ?_, fun packet' s' _ => ⟨fun k hk => ?_, fun _ _ _ => trivial⟩⟩
  · cases (show Kind.lseek = k from Option.some.inj hk)
    exact fun f base _ _ => .inl (by decide)
  · cases (show Kind.read = k from Option.some.inj hk)
    trivial

/-- Seek back by one byte from the third. -/
theorem not_positions_kept :
    let reqs : List FileRequest := [.lseek (-1) .current]
    let s : Client HostFiles := .initial (threeBytes 2)
      (.receiving ((reqs.map fun r => (r.request 3).bytes).flatten ++ []))
    Readable (id s.host) (3 : Word).toInt ⟨0, 2, true, false⟩ ∧
      ¬ PositionsKept fileHost .little id 3 reqs [] s := by
  intro reqs s
  have hread : Readable (id s.host) (3 : Word).toInt ⟨0, 2, true, false⟩ :=
    threeBytes_readable (by decide)
  refine ⟨hread, ?_⟩
  rintro ⟨packet', s', f, hturn, hf, hserved, -⟩
  cases hread.opened.symm.trans hf
  obtain ⟨a, packet'', -, hturn'⟩ := requestTurn_file fileHost .little (.lseek (-1) .current) 3 []
    (s := s) rfl (incoming_receiving _)
  cases hturn'.symm.trans hturn
  have hkept := (FileRequest.served_iff fileHost .little fileHost_posix (.lseek (-1) .current) a hread
    List.not_mem_nil).mp hserved
  rcases hkept _ 2 rfl rfl with hnonneg | ⟨-, hposition⟩
  · exact absurd hnonneg (by decide)
  · exact absurd hposition (by decide)

end Ps2link

import Ps2Client.Posix.Proofs.ServiceProofs
import Ps2Client.Ps2link.Appending
import Ps2Client.Ps2link.Proofs.FieldsProofs
import Ps2Client.Ps2link.Proofs.PosixHostProofs
import Ps2Client.Ps2link.Proofs.WriteProofs

/-!
# Proofs: appending to a file
-/

namespace Ps2link

open CMemory Network Utility Posix

/-! ## The open flags -/

/-- The low two bits of flags that select writing. -/
theorem accessBits {flags : Word} (hwrite : flags &&& 0x0002 ≠ 0) :
    flags &&& 0x0003 = 0x0002 ∨ flags &&& 0x0003 = 0x0003 := by
  have hmask : flags &&& 0x0002 = (flags &&& 0x0003) &&& 0x0002 := by
    rw [BitVec.and_assoc]
    rfl
  have hle : (flags &&& 0x0003).toNat ≤ 3 := by
    rw [BitVec.toNat_and]
    exact Nat.and_le_right
  rw [hmask] at hwrite
  generalize flags &&& 0x0003 = bits at hwrite hle
  have hbits : bits = BitVec.ofNat 32 bits.toNat := by simp
  have hcases : bits.toNat = 0 ∨ bits.toNat = 1 ∨ bits.toNat = 2 ∨ bits.toNat = 3 := by omega
  rcases hcases with hb | hb | hb | hb
  · rw [hbits, hb] at hwrite
    exact absurd rfl hwrite
  · rw [hbits, hb] at hwrite
    exact absurd rfl hwrite
  · rw [hb] at hbits
    exact .inl hbits
  · rw [hb] at hbits
    exact .inr hbits

/-- The converted flags of a request to append: write access, `O_APPEND`, and `O_TRUNC` unless the
file is opened for reading too. -/
theorem fixFlags_append {flags : Word} (hflags : AppendFlags flags) :
    fixFlags flags &&& O_ACCMODE ≠ O_RDONLY ∧ (fixFlags flags &&& O_APPEND != 0) = true ∧
      (fixFlags flags &&& O_TRUNC != 0) = decide (flags &&& 0x0003 ≠ 0x0003) := by
  obtain ⟨hwrite, happend, htrunc⟩ := hflags
  unfold fixFlags addFlag accessMode
  rw [if_neg (not_not.mpr htrunc), if_pos happend]
  rcases accessBits hwrite with hbits | hbits
  · rw [hbits]
    split <;> split <;> decide
  · rw [hbits]
    split <;> split <;> decide

section

variable {σ : Type} (h : Host σ) (e : Endian)

/-! ## One turn -/

/-- A turn on a request that does not end the loop performs its operation. -/
theorem TurnOn.operation {k : Kind} {r : Request} {op : Operation} {s s' : Client σ}
    (hturn : TurnOn h e r s s') (hnumber : r.number = k.request) (hlen : r.payload.length ≤ 512)
    (hop : ∀ packet, k.decode e (inBuffer r.number r.payload packet) = op) :
    ∃ a rest, arrivedBytes a = r.data ++ rest ∧
      s' = setActivity h (op.perform h e (s.arrive a)).2 := by
  obtain ⟨b, rest, packet, packet', hb, hturn⟩ := hturn
  have hin : (s.arrive b).sock.incoming = be32 r.number ++
      (be16 (.ofNat 16 (6 + r.payload.length)) ++ (r.payload ++ (r.data ++ rest))) := by
    refine hb.trans ?_
    simp only [Request.bytes, List.append_assoc]
  obtain ⟨a, ha, hserve⟩ := requestTurn_packet h e hlen hin
  have hrun := dispatch_operation h e (s.arrive a)
    ((net32_inBuffer_number r.number r.payload packet).trans hnumber)
  rw [hop] at hrun
  refine ⟨a, rest, ha, ?_⟩
  rw [hserve packet] at hturn
  cases hcrash : (dispatch h e (inBuffer r.number r.payload packet) (s.arrive a)).2.2.crashed with
  | true =>
    rw [serveTurn_crashed h e hcrash] at hturn
    cases hturn
  | false =>
    rw [serveTurn_live h e hcrash] at hturn
    cases hturn
    rw [hrun]

theorem TurnOn.perform {f : Fields} {data : List Byte} {s s' : Client σ}
    (hturn : TurnOn h e (f.request data) s s') :
    ∃ a rest, arrivedBytes a = data ++ rest ∧
      s' = setActivity h ((f.operation e).perform h e (s.arrive a)).2 :=
  TurnOn.operation h e hturn rfl f.payload_length (decode_fields e f f.kind.request)

variable {view : σ → HostFiles} (hposix : PosixHost h view)

/-- The descriptor `fd` appends to the file `i`, which has the path `path` and the content `c`. -/
structure Appends (fs : HostFiles) (path : List Byte) (i : Nat) (fd : Int) (c : List Byte) : Prop where
  lookup : fs.lookup path = some i
  content : fs.content i = c
  opened : ∃ f, fs.opened fd = some f ∧ f.inode = i ∧ f.append = true

/-- An `open` of a regular file. -/
theorem performOpen_regular {path : List Byte} (flags : Word) {s : Client σ}
    (hping : path ≠ PING_PATHNAME)
    (hregular : (h.call (.stat path) s.host).1.any (fun st => !isDir st.mode) = true) :
    (performOpen h e path flags s).2 =
      (responseOpen e (h.call (.open path flags 0o644) (h.call (.stat path) s.host).2).1
        ((s.call h (.stat path)).2.call h (.open path flags 0o644)).2).2 := by
  unfold performOpen
  rw [if_neg hping]
  exact congrArg Prod.snd (if_pos (.inl hregular))

include hposix in
/-- An `open` that is answered by a descriptor. -/
theorem performOpen_turn {path : List Byte} {flags : Word} {i : Nat} {s s₁ s' : Client σ}
    (hs' : s' = setActivity h (performOpen h e path flags s₁).2)
    (hping : path ≠ PING_PATHNAME) (hview : view s₁.host = view s.host)
    (hsent : s₁.sock.sent = s.sock.sent) (hw : s₁.sock.Writable)
    (hfile : (view s.host).lookup path = some i) (haccess : flags &&& O_ACCMODE ≠ O_RDONLY)
    (hfd : 0 ≤ answerResult s s') :
    view s'.host = HostFiles.open (view s.host) i flags (answerResult s s') ∧
      s'.sock.Writable := by
  unfold performOpen at hs'
  rw [if_neg hping] at hs'
  dsimp only at hs'
  split at hs'
  · have hstat := (hposix.stat path s₁.host).trans hview
    rw [← hstat] at hfile
    have hanswer : answerResult s s' =
        toInt32 (h.call (.open path flags 0o644) (h.call (.stat path) s₁.host).2).1 := by
      rw [hs']
      exact answerResult_responseResult e RESPONSE_OPEN _ s
        ((s₁.call h (.stat path)).2.call h (.open path flags 0o644)).2 hsent hw
    rcases hposix.open 0o644 hfile (.inr haccess) with hfail | ⟨fd, hlt, hopened, hview'⟩
    · rw [hanswer, hfail] at hfd
      exact absurd hfd (by decide)
    · have hresult : answerResult s s' = fd := by
        rw [hanswer, hopened]
        exact toInt32_of_fits (by omega) (by omega)
      rw [hresult, ← hstat, ← hview', hs']
      exact ⟨hposix.timeMs _, send_writable _ _ _ hw⟩
  · have hanswer : answerResult s s' = -1 := by
      rw [hs']
      exact answerResult_responseResult e RESPONSE_OPEN (-1) s (s₁.call h (.stat path)).2 hsent hw
    rw [hanswer] at hfd
    exact absurd hfd (by decide)

include hposix in
theorem receiveAndWrite_turn {buffer data rest : List Byte} {fd size : Word} {f : OpenFile Nat}
    {s s₁ s' : Client σ} (hs' : s' = setActivity h (receiveAndWrite h e buffer fd size s₁).2)
    (hview : view s₁.host = view s.host) (hsent : s₁.sock.sent = s.sock.sent)
    (hw : s₁.sock.Writable) (hin : s₁.sock.incoming = data ++ rest)
    (hsize : data.length = size.toNat) (hlt : data.length < 2 ^ 31)
    (hf : (view s.host).opened fd.toInt = some f) (haccepted : answerResult s s' = data.length) :
    view s'.host = (view s.host).write fd.toInt data ∧ s'.sock.Writable := by
  obtain ⟨a, -, hrun⟩ := receiveAndWrite_enough h e buffer fd hin hsize (by omega)
  rw [hrun] at hs'
  have hanswer : answerResult s s' = toInt32 (h.call (.write fd.toInt data) s₁.host).1 := by
    rw [hs']
    refine (answerResult_responseResult e RESPONSE_WRITE _ s
      ((s₁.arrive a).call h (.write fd.toInt data)).2 hsent hw).trans ?_
    exact toInt32_toInt32 _
  have hwritable : s'.sock.Writable := by
    rw [hs']
    exact send_writable _ _ _ hw
  rw [← hview] at hf ⊢
  rcases hposix.write data hf with ⟨hfail, -⟩ | ⟨n, hn, hresult, hview'⟩
  · rw [hanswer, hfail] at haccepted
    exact absurd haccepted (by show (-1 : Int) ≠ _; omega)
  · have hall : n = data.length := by
      rw [hanswer, hresult, toInt32_of_fits (by omega) (by omega)] at haccepted
      exact Int.ofNat.inj haccepted
    rw [hall, List.take_length] at hview'
    refine ⟨?_, hwritable⟩
    rw [hs', ← hview']
    exact hposix.timeMs _

include hposix in
/-- A `write` whose data the host accepts whole. -/
theorem performWrite_turn {data rest : List Byte} {fd : Word} {f : OpenFile Nat}
    {s s' : Client σ} {a : List Arrival}
    (hs' : s' = setActivity h (performWrite h e fd (.ofNat 32 data.length) (s.arrive a)).2)
    (hw : s.sock.Writable) (ha : arrivedBytes a = data ++ rest)
    (hf : (view s.host).opened fd.toInt = some f) (haccepted : answerResult s s' = data.length) :
    view s'.host = (view s.host).write fd.toInt data ∧ s'.sock.Writable := by
  -- The response can only say so if the length fits an `int`.
  have hlt : data.length < 2 ^ 31 := by
    have hint := BitVec.toInt_lt (x := net32 (answer s s') 6)
    rw [← answerResult, haccepted] at hint
    omega
  have hsize : data.length = (BitVec.ofNat 32 data.length).toNat := by
    rw [BitVec.toNat_ofNat, Nat.mod_eq_of_lt (by omega)]
  unfold performWrite at hs'
  split at hs'
  · dsimp only at hs'
    split at hs'
    · rename_i hbig _ _
      have hsent : s'.sock.sent = s.sock.sent ++ [] := by
        rw [hs', List.append_nil]
        rfl
      rw [answerResult, answer_eq hsent] at haccepted
      have hzero : (net32 [] 6).toInt = 0 := by decide
      omega
    · exact receiveAndWrite_turn h e hposix hs' (hposix.malloc ..) rfl hw ha hsize hlt hf haccepted
  · exact receiveAndWrite_turn h e hposix hs' (hposix.uninit ..) rfl hw ha hsize hlt hf haccepted

/-! ## A session -/

theorem Appends.write {fs : HostFiles} {path : List Byte} {i : Nat} {fd : Int} {c : List Byte}
    (happends : Appends fs path i fd c) (data : List Byte) :
    Appends (fs.write fd data) path i fd (c ++ data) := by
  obtain ⟨f, hf, rfl, happend⟩ := happends.opened
  obtain ⟨hcontent, position, hopened⟩ := write_append hf happend data
  refine ⟨?_, ?_, { f with position := position }, hopened, rfl, happend⟩
  · unfold Files.write
    rw [hf]
    exact happends.lookup
  · rw [hcontent, happends.content]

include hposix in
theorem Writes.appends {fd : Word} {chunks : List (List Byte)} {s s' : Client σ}
    (hwrites : Writes h e fd chunks s s') {path c : List Byte} {i : Nat}
    (hw : s.sock.Writable) (happends : Appends (view s.host) path i fd.toInt c) :
    Appends (view s'.host) path i fd.toInt (c ++ chunks.flatten) := by
  induction hwrites generalizing c with
  | nil s =>
    rw [List.flatten_nil, List.append_nil]
    exact happends
  | cons hturn haccepted hrest ih =>
    obtain ⟨f, hf, -, -⟩ := happends.opened
    obtain ⟨a, rest, ha, hs'⟩ := hturn.perform
    obtain ⟨hview, hw'⟩ := performWrite_turn h e hposix hs' hw ha hf haccepted
    rw [List.flatten_cons, ← List.append_assoc]
    refine ih hw' ?_
    rw [hview]
    exact happends.write _

include hposix in
/-- At the end of a session, before the file is closed. -/
theorem WriteSession.appends {flags : Word} {path : PathField} {chunks : List (List Byte)} {i : Nat}
    {s s' : Client σ} (hsession : WriteSession h e flags path chunks s s')
    (hflags : AppendFlags flags) (hping : hostPath path.path ≠ PING_PATHNAME)
    (hfile : (view s.host).lookup (hostPath path.path) = some i) (hw : s.sock.Writable) :
    ∃ fs fd, view s'.host = fs.close fd ∧ Appends fs (hostPath path.path) i fd
      (keptContent flags ((view s.host).content i) ++ chunks.flatten) := by
  obtain ⟨s₁, s₂, hopen, hfd, hwrites, hclose⟩ := hsession
  obtain ⟨haccess, happend, htrunc⟩ := fixFlags_append hflags
  obtain ⟨a, -, -, hs₁⟩ := hopen.perform
  obtain ⟨hview₁, hw₁⟩ :=
    performOpen_turn h e hposix (s := s) hs₁ hping rfl rfl hw hfile haccess hfd
  have hstart : Appends (view s₁.host) (hostPath path.path) i (answerResult s s₁)
      (keptContent flags ((view s.host).content i)) := by
    rw [hview₁]
    refine ⟨hfile, ?_, _, open_opened .., rfl, happend⟩
    refine (open_content ..).trans ?_
    rw [htrunc, keptContent]
    by_cases hread : flags &&& 0x0003 = 0x0003
    · rw [if_pos hread, decide_eq_false (not_not.mpr hread), if_neg Bool.false_ne_true]
    · rw [if_neg hread, decide_eq_true hread, if_pos rfl]
  refine ⟨view s₂.host, answerResult s s₁, ?_, hwrites.appends h e hposix hw₁ hstart⟩
  obtain ⟨b, -, -, hs'⟩ := hclose.perform
  rw [hs']
  refine (hposix.timeMs _).trans (Eq.trans ?_ (hposix.close _ _))
  show view (performClose h e _ (s₂.arrive b)).2.host = _
  unfold performClose
  dsimp only
  split <;> rfl

include hposix in
/-- After a session of appending, the file has the content it was opened with, and after it the data
written. -/
theorem append_session {flags : Word} {path : PathField} {chunks : List (List Byte)} {i : Nat}
    {s s' : Client σ} (hflags : AppendFlags flags) (hping : hostPath path.path ≠ PING_PATHNAME)
    (hfile : (view s.host).lookup (hostPath path.path) = some i) (hw : s.sock.Writable)
    (hsession : WriteSession h e flags path chunks s s') :
    (view s'.host).lookup (hostPath path.path) = some i ∧
      (view s'.host).content i = keptContent flags ((view s.host).content i) ++ chunks.flatten := by
  obtain ⟨fs, fd, hview, hend⟩ := hsession.appends h e hposix hflags hping hfile hw
  rw [hview]
  exact ⟨hend.lookup, hend.content⟩

/-! ## Sessions there are -/

theorem turnOn_of_live (f : Fields) (data : List Byte) (s : Client σ)
    (hlive : ∀ a, ((f.operation e).perform h e (s.arrive a)).2.crashed = false) :
    ∃ a, arrivedBytes a = data ∧
      TurnOn h e (f.request data) s (setActivity h ((f.operation e).perform h e (s.arrive a)).2) := by
  let b := (Socket.receiving (f.request data).bytes).arrivals
  have hb : arrivedBytes b = (f.request data).bytes := incoming_receiving _
  have hin : (s.arrive b).sock.incoming = be32 f.kind.request ++
      (be16 (.ofNat 16 (6 + f.payload.length)) ++ (f.payload ++ data)) := hb
  obtain ⟨a, ha, hturn⟩ := requestTurn_operation h e rfl f.payload_length
    (decode_fields e f f.kind.request []) hin
  obtain ⟨packet', hturn⟩ := hturn (hlive a)
  exact ⟨a, ha, b, [], [], packet', by rw [hb, List.append_nil], hturn⟩

end

/-- A host with one file, which is not open. -/
def oneFile (c : List Byte) : HostFiles where
  lookup path := if path = [ascii 'a'] then some 0 else none
  content _ := c
  opened _ := none

theorem oneFile_lookup (c : List Byte) : (oneFile c).lookup [ascii 'a'] = some 0 := by
  simp [oneFile]

theorem pathA_ne_ping : hostPath pathA.path ≠ PING_PATHNAME := by
  rw [hostPath_pathA]
  decide

theorem oneFile_pathA (c : List Byte) : (oneFile c).lookup (hostPath pathA.path) = some 0 := by
  rw [hostPath_pathA]
  exact oneFile_lookup c

theorem fileHost_stat {fs : HostFiles} {path : List Byte} {i : Nat} (hpath : fs.lookup path = some i) :
    (fileHost.call (.stat path) fs).1.any (fun st => !isDir st.mode) = true := by
  show ((fs.lookup path).map _).any _ = true
  rw [hpath, Option.map_some, Option.any_some]
  exact (by decide : (!isDir 0x81A4) = true)

section

variable (e : Endian)

theorem open_turnOn (flags : Word) {i : Nat} {s : Client HostFiles}
    (hfile : s.host.lookup [ascii 'a'] = some i) (hfree : s.host.opened 3 = none)
    (hw : s.sock.Writable) (hlive : s.crashed = false) :
    ∃ s₁, TurnOn fileHost e ((Fields.open flags pathA).request []) s s₁ ∧
      answerResult s s₁ = 3 ∧ s₁.sock.Writable ∧ s₁.crashed = false ∧
      ∃ f, s₁.host.opened 3 = some f := by
  have hrun : ∀ a, (((Fields.open flags pathA).operation e).perform fileHost e (s.arrive a)).2 =
      (responseOpen e (fileHost.call (.open [ascii 'a'] (fixFlags flags) 0o644) s.host).1
        (((s.arrive a).call fileHost (.stat [ascii 'a'])).2.call fileHost
          (.open [ascii 'a'] (fixFlags flags) 0o644)).2).2 := by
    intro a
    show (performOpen fileHost e (hostPath pathA.path) (fixFlags flags) (s.arrive a)).2 = _
    rw [hostPath_pathA]
    exact performOpen_regular fileHost e (fixFlags flags) (by decide) (fileHost_stat hfile)
  obtain ⟨a, -, hturn⟩ := turnOn_of_live fileHost e (.open flags pathA) [] s
    (fun a => by rw [hrun a]; exact hlive)
  rw [hrun a] at hturn
  have hanswer := answerResult_responseResult e RESPONSE_OPEN
    (fileHost.call (.open [ascii 'a'] (fixFlags flags) 0o644) s.host).1 s
    (((s.arrive a).call fileHost (.stat [ascii 'a'])).2.call fileHost
      (.open [ascii 'a'] (fixFlags flags) 0o644)).2 rfl hw
  have hopen := fileHost_open (fixFlags flags) 0o644 hfile
  rw [if_neg (not_not.mpr hfree)] at hopen
  have hhost : (fileHost.call (.open [ascii 'a'] (fixFlags flags) 0o644) s.host).2 = _ :=
    congrArg Prod.snd hopen
  have hresult : toInt32 (fileHost.call (.open [ascii 'a'] (fixFlags flags) 0o644) s.host).1 = 3 := by
    rw [hopen]
    rfl
  refine ⟨_, hturn, hanswer.trans hresult, send_writable _ _ _ hw, hlive, ?_⟩
  show ∃ f, (fileHost.call (.open [ascii 'a'] (fixFlags flags) 0o644) s.host).2.opened 3 = some f
  rw [hhost]
  exact ⟨_, open_opened ..⟩

/-- A short write to an open descriptor is accepted whole. -/
theorem write_turnOn {fd : Word} {data : List Byte} {f : OpenFile Nat} {s : Client HostFiles}
    (hf : s.host.opened fd.toInt = some f) (hlen : data.length ≤ 65536) (hw : s.sock.Writable)
    (hlive : s.crashed = false) :
    ∃ s', TurnOn fileHost e ((Fields.write fd (.ofNat 32 data.length)).request data) s s' ∧
      answerResult s s' = data.length ∧ s'.crashed = false ∧
      s'.host = s.host.write fd.toInt data := by
  have hsize : data.length = (BitVec.ofNat 32 data.length).toNat := by
    rw [BitVec.toNat_ofNat, Nat.mod_eq_of_lt (by omega)]
  generalize BitVec.ofNat 32 data.length = size at hsize ⊢
  obtain ⟨a, ha, hturn⟩ := turnOn_of_live fileHost e (.write fd size) data s
    (fun a => (performWrite_crashed ..).trans hlive)
  have hin : ((s.arrive a).uninit fileHost 65536).2.sock.incoming = data ++ [] := by
    rw [List.append_nil]
    exact ha
  obtain ⟨b, -, hrun⟩ := receiveAndWrite_enough fileHost e ((s.arrive a).uninit fileHost 65536).1 fd
    hin hsize (by omega)
  have hperform : performWrite fileHost e fd size (s.arrive a) = _ :=
    (if_neg (show ¬ 65536 < size.toNat by omega)).trans hrun
  have hanswer := answerResult_responseResult e RESPONSE_WRITE
    (toInt32 (fileHost.call (.write fd.toInt data) s.host).1) s
    ((((s.arrive a).uninit fileHost 65536).2.arrive b).call fileHost (.write fd.toInt data)).2 rfl hw
  rw [show ((Fields.write fd size).operation e).perform fileHost e (s.arrive a) = _ from hperform]
    at hturn
  refine ⟨_, hturn, ?_, hlive, congrArg Prod.snd (fileHost_write data hf)⟩
  refine hanswer.trans ((toInt32_toInt32 _).trans ?_)
  rw [show (fileHost.call (.write fd.toInt data) s.host).1 = _ from
    congrArg Prod.fst (fileHost_write data hf)]
  exact toInt32_of_fits (by omega) (by omega)

/-- What was opened is written to, and closed. -/
theorem writeSession_of_open {flags : Word} {path : PathField} {data : List Byte}
    {f : OpenFile Nat} {s s₁ : Client HostFiles}
    (hopen : TurnOn fileHost e ((Fields.open flags path).request []) s s₁)
    (hfd : answerResult s s₁ = 3) (hf : s₁.host.opened 3 = some f) (hlen : data.length ≤ 65536)
    (hw₁ : s₁.sock.Writable) (hlive₁ : s₁.crashed = false) :
    ∃ s', WriteSession fileHost e flags path [data] s s' ∧
      s'.host = (s₁.host.write 3 data).close 3 := by
  have hword : net32 (answer s s₁) 6 = 3 := BitVec.eq_of_toInt_eq hfd
  have hf' : s₁.host.opened (3 : Word).toInt = some f := hf
  obtain ⟨s₂, hwrite, haccepted, hlive₂, hhost₂⟩ := write_turnOn e hf' hlen hw₁ hlive₁
  have hclosed : ∀ a, (performClose fileHost e 3 (s₂.arrive a)).2.crashed = false ∧
      (performClose fileHost e 3 (s₂.arrive a)).2.host = s₂.host.close 3 := by
    intro a
    unfold performClose
    dsimp only
    split
    · exact ⟨hlive₂, rfl⟩
    · exact ⟨hlive₂, rfl⟩
  obtain ⟨a, -, hclose⟩ := turnOn_of_live fileHost e (.close 3) [] s₂ fun a => (hclosed a).1
  refine ⟨(setActivity fileHost (performClose fileHost e 3 (s₂.arrive a)).2),
    ⟨s₁, s₂, hopen, ?_, ?_, ?_⟩, ?_⟩
  · rw [hfd]
    decide
  · rw [hword]
    exact .cons hwrite haccepted (.nil s₂)
  · rw [hword]
    exact hclose
  · rw [show s₁.host.write 3 data = s₂.host from hhost₂.symm]
    exact (hclosed a).2

/-- The file `a` is opened, `data` are written to it, and it is closed. -/
theorem writeSession_oneFile (flags : Word) (c : List Byte) {data : List Byte}
    (hlen : data.length ≤ 65536) :
    ∃ s', WriteSession fileHost e flags pathA [data] (.initial (oneFile c) (.receiving [])) s' := by
  obtain ⟨s₁, hopen, hfd, hw₁, hlive₁, f, hf⟩ :=
    open_turnOn e flags (s := .initial (oneFile c) (.receiving [])) (oneFile_lookup c) rfl
      List.not_mem_nil rfl
  obtain ⟨s', hsession, -⟩ := writeSession_of_open e hopen hfd hf hlen hw₁ hlive₁
  exact ⟨s', hsession⟩

/-! ## The file of the handshake -/

/-- A host with a file of the name of the handshake, and the null device. -/
def pingFiles (c : List Byte) : HostFiles where
  lookup path := if path = PING_PATHNAME then some 0 else if path = NULL_DEVICE then some 1 else none
  content _ := c
  opened _ := none

theorem pingFiles_lookup (c : List Byte) : (pingFiles c).lookup PING_PATHNAME = some 0 ∧
    (pingFiles c).lookup NULL_DEVICE = some 1 := by
  have hne : NULL_DEVICE ≠ PING_PATHNAME := by decide
  constructor
  · simp [pingFiles]
  · simp [pingFiles, hne]

/-- What is written to the file of the handshake goes to the null device. -/
theorem writeSession_ping (flags : Word) (c : List Byte) {data : List Byte}
    (hlen : data.length ≤ 65536) :
    ∃ s', WriteSession fileHost e flags pathPing [data] (.initial (pingFiles c) (.receiving [])) s' ∧
      s'.host.content 0 = c := by
  let s : Client HostFiles := .initial (pingFiles c) (.receiving [])
  have hw : s.sock.Writable := List.not_mem_nil
  have hcall : fileHost.call (.open NULL_DEVICE O_WRONLY 0) s.host =
      ((3 : Int), HostFiles.open s.host 1 O_WRONLY 3) :=
    (fileHost_open O_WRONLY 0 (pingFiles_lookup c).2).trans (if_neg fun hne => hne rfl)
  let opened (a : List Arrival) : Client HostFiles :=
    { ((s.arrive a).call fileHost (.open NULL_DEVICE O_WRONLY 0)).2 with pingFd := 3 }
  have hrun : ∀ a, (((Fields.open flags pathPing).operation e).perform fileHost e (s.arrive a)).2 =
      (responseOpen e 3 (opened a)).2 := by
    intro a
    show (performOpen fileHost e (hostPath pathPing.path) (fixFlags flags) (s.arrive a)).2 = _
    rw [hostPath_pathPing]
    rfl
  obtain ⟨a, -, hturn⟩ := turnOn_of_live fileHost e (.open flags pathPing) [] s
    (fun a => by rw [hrun a]; rfl)
  rw [hrun a] at hturn
  have hanswer := answerResult_responseResult e RESPONSE_OPEN 3 s (opened a) rfl hw
  have hhost : (opened a).host = HostFiles.open s.host 1 O_WRONLY 3 := congrArg Prod.snd hcall
  have hf : (opened a).host.opened 3 = some ⟨1, 0, false, false⟩ := by
    rw [hhost]
    rfl
  obtain ⟨s', hsession, hhost'⟩ :=
    writeSession_of_open e hturn (hanswer.trans (by decide)) hf hlen (send_writable _ _ _ hw) rfl
  refine ⟨s', hsession, ?_⟩
  rw [hhost']
  refine (write_frame data hf (show (1 : Nat) ≠ 0 by decide)).trans ?_
  rw [hhost]
  rfl

end

/-- A file that is opened for reading and writing. -/
theorem append_session_readWrite : ∃ s' : Client HostFiles,
    WriteSession fileHost .little 0x0103 pathA [[2]] (.initial (oneFile [1]) (.receiving [])) s' ∧
      s'.host.content 0 = [1, 2] := by
  obtain ⟨s', hsession⟩ := writeSession_oneFile .little 0x0103 [1] (show [2].length ≤ 65536 by decide)
  have hflags : AppendFlags 0x0103 := by unfold AppendFlags; decide
  have hfile := oneFile_pathA [1]
  have hw : (Socket.receiving []).Writable := List.not_mem_nil
  have hcontent := append_session (s := .initial (oneFile [1]) (.receiving [])) fileHost .little
    fileHost_posix hflags pathA_ne_ping hfile hw hsession
  exact ⟨s', hsession, hcontent.2⟩

/-- A file that is opened for writing only loses its content, and what is written to the file of the
handshake is lost. -/
theorem append_loses :
    (∃ s' : Client HostFiles, AppendFlags 0x0102 ∧
      hostPath pathA.path ≠ PING_PATHNAME ∧ (oneFile [1]).lookup (hostPath pathA.path) = some 0 ∧
      WriteSession fileHost .little 0x0102 pathA [[2]] (.initial (oneFile [1]) (.receiving [])) s' ∧
        s'.host.content 0 ≠ (oneFile [1]).content 0 ++ [[2]].flatten) ∧
    ∃ s' : Client HostFiles, AppendFlags 0x0103 ∧
      (pingFiles [1]).lookup (hostPath pathPing.path) = some 0 ∧
      WriteSession fileHost .little 0x0103 pathPing [[2]] (.initial (pingFiles [1]) (.receiving [])) s' ∧
        s'.host.content 0 ≠ (pingFiles [1]).content 0 ++ [[2]].flatten := by
  constructor
  · obtain ⟨s', hsession⟩ :=
      writeSession_oneFile .little 0x0102 [1] (show [2].length ≤ 65536 by decide)
    have hflags : AppendFlags 0x0102 := by unfold AppendFlags; decide
    have hfile := oneFile_pathA [1]
    refine ⟨s', hflags, pathA_ne_ping, hfile, hsession, ?_⟩
    have hw : (Socket.receiving []).Writable := List.not_mem_nil
    obtain ⟨fs, fd, hview, hend⟩ :=
      hsession.appends fileHost .little fileHost_posix hflags pathA_ne_ping hfile hw
    have hcontent : s'.host.content 0 = [2] := by
      rw [show s'.host = fs.close fd from hview]
      exact hend.content
    rw [hcontent]
    decide
  · obtain ⟨s', hsession, hcontent⟩ :=
      writeSession_ping .little 0x0103 [1] (show [2].length ≤ 65536 by decide)
    have hflags : AppendFlags 0x0103 := by unfold AppendFlags; decide
    refine ⟨s', hflags, ?_, hsession, ?_⟩
    · rw [hostPath_pathPing]
      exact (pingFiles_lookup [1]).1
    · rw [hcontent]
      decide

end Ps2link

import Ps2Client.Ps2link.Service
import Ps2Client.Posix.Proofs.ServiceProofs
import Ps2Client.Ps2link.Proofs.AppendingProofs
import Ps2Client.Ps2link.Proofs.ReadingProofs

/-!
# Proofs: the request thread as a file service
-/

namespace Ps2link

open CMemory Network Utility Posix

variable {σ : Type} (h : Host σ) (e : Endian) {view : σ → HostFiles}

/-! ## One turn -/

section

variable (hposix : PosixHost h view)

include hposix in
/-- The last step of a turn with a result. -/
theorem responseResult_turn (number : Word) (n : Int) (s₁ : Client σ) {s s' : Client σ}
    (hs' : s' = setActivity h (responseResult e number n s₁).2)
    (hsent : s₁.sock.sent = s.sock.sent) (hw : s₁.sock.Writable) :
    answerResult s s' = toInt32 n ∧ view s'.host = view s₁.host ∧ s'.sock.Writable := by
  rw [hs']
  exact ⟨answerResult_responseResult e number n s s₁ hsent hw, hposix.timeMs _, send_writable _ _ _ hw⟩

end

variable {h e} (hserver : FileServer h view)

/-- What a turn on the request `c` does, which is something the service may do. -/
def FileCall.Turned (view : σ → HostFiles) (c : FileCall) (s s' : Client σ) : Prop :=
  ∃ reply, c.reply (answer s s') = c.carried reply ∧
    Serves c.op reply (view s.host) (view s'.host) ∧ s'.sock.Writable

theorem toInt32_minus_one : toInt32 (-1) = -1 := by decide

include hserver in
/-- An `open` answers as the file service does, -/
theorem open_turned {flags : Word} {path : PathField} {a : List Arrival} {s s' : Client σ}
    (hfair : (FileCall.open flags path).Acceptable (view s.host)) (hw : s.sock.Writable)
    (hs' : s' = setActivity h (performOpen h e (hostPath path.path) (fixFlags flags) (s.arrive a)).2) :
    (FileCall.open flags path).Turned view s s' := by
  obtain ⟨hping, hfile, haccess⟩ := hfair
  obtain ⟨i, hi⟩ := Option.ne_none_iff_exists'.mp hfile
  unfold performOpen at hs'
  rw [if_neg hping] at hs'
  dsimp only at hs'
  have hstat : view (h.call (.stat (hostPath path.path)) s.host).2 = view s.host :=
    hserver.stat (hostPath path.path) s.host
  split at hs'
  · obtain ⟨hanswer, hview, hw'⟩ :=
      responseResult_turn h e hserver.toPosixHost RESPONSE_OPEN _ _ (s := s) hs' rfl hw
    rw [← hstat] at hi
    rcases hserver.open 0o644 hi haccess with hfail | ⟨fd, hlt, hopened, hview'⟩
    · refine ⟨.result (-1), congrArg Reply.result (hanswer.trans ?_), ?_, hw'⟩
      · exact (congrArg toInt32 hfail).trans toInt32_minus_one
      · rw [hview.trans (hserver.openFails hfail), hstat]
        exact .notOpened ..
    · refine ⟨.result fd, congrArg Reply.result (hanswer.trans ?_), ?_, hw'⟩
      · exact (congrArg toInt32 hopened).trans (toInt32_of_fits (by omega) (by omega))
      · rw [hview.trans hview', hstat]
        rw [hstat] at hi
        exact .opened _ _ _ fd hi
  · obtain ⟨hanswer, hview, hw'⟩ :=
      responseResult_turn h e hserver.toPosixHost RESPONSE_OPEN _ _ (s := s) hs' rfl hw
    refine ⟨.result (-1), congrArg Reply.result (hanswer.trans toInt32_minus_one), ?_, hw'⟩
    rw [hview.trans hstat]
    exact .notOpened ..

include hserver in
/-- and so does a `close`, -/
theorem close_turned {fd : Word} {a : List Arrival} {s s' : Client σ} (hw : s.sock.Writable)
    (hs' : s' = setActivity h (performClose h e fd (s.arrive a)).2) :
    (FileCall.close fd).Turned view s s' := by
  have hclosed : view s'.host = (view s.host).close fd.toInt ∧ s'.sock.Writable := by
    unfold performClose at hs'
    dsimp only at hs'
    split at hs'
    · obtain ⟨-, hview, hw'⟩ :=
        responseResult_turn h e hserver.toPosixHost RESPONSE_CLOSE _ _ (s := s) hs' rfl hw
      exact ⟨hview.trans (hserver.close ..), hw'⟩
    · obtain ⟨-, hview, hw'⟩ :=
        responseResult_turn h e hserver.toPosixHost RESPONSE_CLOSE _ _ (s := s) hs' rfl hw
      exact ⟨hview.trans (hserver.close ..), hw'⟩
  refine ⟨.result (answerResult s s'), rfl, ?_, hclosed.2⟩
  rw [hclosed.1]
  exact .closed ..

include hserver in
/-- a `read`, -/
theorem read_turned {fd size : Word} {a : List Arrival} {s s' : Client σ}
    (hfair : (FileCall.read fd size).Acceptable (view s.host)) (hw : s.sock.Writable)
    (hs' : s' = setActivity h (performRead h e fd size (s.arrive a)).2) :
    (FileCall.read fd size).Turned view s s' := by
  obtain ⟨⟨f, hopened, hreadable⟩, hsize⟩ := hfair
  have hturn := read_turn h e hserver.toPosixHost hserver.allocates a hopened hreadable hsize hw
  dsimp only at hturn
  rw [← hs'] at hturn
  obtain ⟨n, hn, hend, hanswer, hview⟩ := hturn
  have hw' : s'.sock.Writable := by
    obtain ⟨s₁, hsock, -, hperform⟩ :=
      performRead_allocated h e hserver.allocates fd size (s.arrive a)
    rw [hs', hperform]
    refine send_writable _ _ _ (send_writable _ _ _ ?_)
    show s₁.sock.Writable
    rw [hsock]
    exact hw
  refine ⟨.data ((view s.host).read fd.toInt n).1, ?_, ?_, hw'⟩
  · rw [hanswer, read_eq hopened]
    rfl
  · rw [hview]
    exact .read n hopened hreadable hn hend

include hserver in
/-- a `write`, which takes its data off the connection, -/
theorem write_turned {fd : Word} {data rest : List Byte} {a : List Arrival} {s s' : Client σ}
    (hfair : (FileCall.write fd data).Acceptable (view s.host)) (hw : s.sock.Writable)
    (ha : arrivedBytes a = data ++ rest)
    (hs' : s' = setActivity h (performWrite h e fd (.ofNat 32 data.length) (s.arrive a)).2) :
    (FileCall.write fd data).Turned view s s' := by
  obtain ⟨hopened, hlt⟩ := hfair
  obtain ⟨f, hf⟩ := Option.ne_none_iff_exists'.mp hopened
  have hsize : data.length = (BitVec.ofNat 32 data.length).toNat := by
    rw [BitVec.toNat_ofNat, Nat.mod_eq_of_lt (by omega)]
  -- Whichever buffer is used, the host is as it was, and the data are still to be received.
  have hbuffer : ∃ (buffer : List Byte) (s₁ : Client σ), view s₁.host = view s.host ∧
      s₁.sock = (s.arrive a).sock ∧ performWrite h e fd (.ofNat 32 data.length) (s.arrive a) =
        receiveAndWrite h e buffer fd (.ofNat 32 data.length) s₁ := by
    unfold performWrite
    dsimp only
    split
    · split
      · rename_i hnone
        exact absurd hnone (hserver.allocates _ _)
      · exact ⟨_, _, hserver.malloc .., rfl, rfl⟩
    · exact ⟨_, _, hserver.uninit .., rfl, rfl⟩
  obtain ⟨buffer, s₁, hview₁, hsock, hperform⟩ := hbuffer
  have hin : s₁.sock.incoming = data ++ rest := (congrArg Socket.incoming hsock).trans ha
  obtain ⟨b, -, hrun⟩ := receiveAndWrite_enough h e buffer fd hin hsize (by omega)
  rw [hperform, hrun] at hs'
  obtain ⟨hanswer, hview, hw'⟩ := responseResult_turn h e hserver.toPosixHost RESPONSE_WRITE _ _
    (s := s) hs' (show s₁.sock.sent = s.sock.sent by rw [hsock])
    (show Outcome.fail ∉ s₁.sock.outcomes by rw [hsock]; exact hw)
  replace hanswer := hanswer.trans (toInt32_toInt32 _)
  rw [← hview₁] at hf
  rcases hserver.write data hf with ⟨hfail, hsame⟩ | ⟨n, hn, hresult, hwritten⟩
  · refine ⟨.result (-1), congrArg Reply.result (hanswer.trans ?_), ?_, hw'⟩
    · exact (congrArg toInt32 hfail).trans toInt32_minus_one
    · rw [(hview.trans hsame).trans hview₁]
      exact .notWritten ..
  · refine ⟨.result n, congrArg Reply.result (hanswer.trans ?_), ?_, hw'⟩
    · exact (congrArg toInt32 hresult).trans (toInt32_of_fits (by omega) (by omega))
    · rw [hview.trans hwritten, hview₁]
      rw [hview₁] at hf
      exact .written n hf hn

include hserver in
/-- and an `lseek`, up to what fits an `int`. -/
theorem lseek_turned {fd offset whence : Word} {a : List Arrival} {s s' : Client σ}
    (hfair : (FileCall.lseek fd offset whence).Acceptable (view s.host)) (hw : s.sock.Writable)
    (hs' : s' = setActivity h (performLseek h e fd offset whence (s.arrive a)).2) :
    (FileCall.lseek fd offset whence).Turned view s s' := by
  obtain ⟨f, hf⟩ := Option.ne_none_iff_exists'.mp hfair
  obtain ⟨hresult, hmoved⟩ := hserver.lseek offset.toNat whence.toInt hf
  obtain ⟨hanswer, hview, hw'⟩ :=
    responseResult_turn h e hserver.toPosixHost RESPONSE_LSEEK _ _ (s := s) hs' rfl hw
  replace hanswer := hanswer.trans (toInt32_toInt32 _)
  refine ⟨.result ((view s.host).lseek fd.toInt offset.toNat whence.toInt).1,
    congrArg Reply.result (hanswer.trans (congrArg toInt32 hresult)), ?_, hw'⟩
  rw [hview.trans hmoved]
  exact .sought ..

theorem decode_lseek (fd offset whence number : Word) (packet : List Byte) :
    Kind.lseek.decode e (inBuffer number (be32 fd ++ (be32 offset ++ be32 whence)) packet) =
      .lseek fd offset whence := by
  have hfd := @net32_inBuffer_be32 number fd [] (be32 offset ++ be32 whence) 0 packet rfl
  have hoffset := @net32_inBuffer_be32 number offset (be32 fd) (be32 whence) 4 packet (be32_length fd)
  have hwhence := @net32_inBuffer_be32 number whence (be32 fd ++ be32 offset) [] 8 packet (by simp)
  rw [List.append_nil, List.append_assoc] at hwhence
  exact congr (congrArg₂ Operation.lseek hfd hoffset) hwhence

include hserver in
/-- What the thread does on an acceptable request, the service may do. -/
theorem FileCall.turned {c : FileCall} {s s' : Client σ} (hfair : c.Acceptable (view s.host))
    (hw : s.sock.Writable) (hturn : TurnOn h e c.request s s') : c.Turned view s s' := by
  cases c with
  | «open» flags path =>
    obtain ⟨a, rest, -, hs'⟩ := hturn.perform
    exact open_turned hserver hfair hw hs'
  | close fd =>
    obtain ⟨a, rest, -, hs'⟩ := hturn.perform
    exact close_turned hserver hw hs'
  | read fd size =>
    obtain ⟨a, rest, -, hs'⟩ := hturn.perform
    exact read_turned hserver hfair hw hs'
  | write fd data =>
    obtain ⟨a, rest, ha, hs'⟩ := hturn.perform
    exact write_turned hserver hfair hw ha hs'
  | lseek fd offset whence =>
    obtain ⟨a, rest, -, hs'⟩ := hturn.operation h e (k := .lseek) rfl
      (by simp [FileCall.request]) (decode_lseek fd offset whence REQUEST_LSEEK)
    exact lseek_turned hserver hfair hw hs'

/-! ## Sessions -/

variable {P : FileCall → HostFiles → Prop} (hfair : ∀ c fs, P c fs → c.Acceptable fs)

include hserver hfair in
/-- What the ps2 has seen of a session is what a file service may have done, with answers cut to what
the responses can carry. -/
theorem Session.runs {session : List (FileCall × Reply Byte)} {s s' : Client σ}
    (hsession : Session h e view P session s s') (hw : s.sock.Writable) :
    ∃ run : List (FileCall × Reply Byte), session = run.map (fun x => (x.1, x.1.carried x.2)) ∧
      Runs (run.map fun x => (x.1.op, x.2)) (view s.host) (view s'.host) ∧ s'.sock.Writable := by
  induction hsession with
  | nil s => exact ⟨[], rfl, .nil _, hw⟩
  | @cons c rest s s₁ s₂ hcall hturn hrest ih =>
    obtain ⟨reply, hreply, hserves, hw₁⟩ := FileCall.turned hserver (hfair c _ hcall) hw hturn
    obtain ⟨run, hsame, hrun, hw₂⟩ := ih hw₁
    refine ⟨(c, reply) :: run, ?_, .cons hserves hrun, hw₂⟩
    rw [List.map_cons, ← hsame, hreply]

theorem Session.mono {Q : FileCall → HostFiles → Prop} (hPQ : ∀ c fs, P c fs → Q c fs)
    {session : List (FileCall × Reply Byte)} {s s' : Client σ}
    (hsession : Session h e view P session s s') : Session h e view Q session s s' := by
  induction hsession with
  | nil s => exact .nil s
  | cons hcall hturn hrest ih => exact .cons (hPQ _ _ hcall) hturn ih

include hserver hfair in
/-- A session in which no request touches a file leaves the file as it was. -/
theorem Session.spares {i : Nat} (hspares : ∀ c fs, P c fs → ¬ c.op.Touches fs i)
    {session : List (FileCall × Reply Byte)} {s s' : Client σ}
    (hsession : Session h e view P session s s') (hw : s.sock.Writable) :
    (view s'.host).content i = (view s.host).content i := by
  induction hsession with
  | nil s => rfl
  | @cons c rest s s₁ s₂ hcall hturn hrest ih =>
    obtain ⟨reply, -, hserves, hw₁⟩ := FileCall.turned hserver (hfair c _ hcall) hw hturn
    rw [ih hw₁]
    exact hserves.frame (hspares c _ hcall)

include hserver hfair in
/-- Without `lseek`, nothing is cut. -/
theorem Session.exactly {session : List (FileCall × Reply Byte)} {s s' : Client σ}
    (hsession : Session h e view P session s s') (hw : s.sock.Writable)
    (hexact : ∀ x ∈ session, ∀ reply, x.1.carried reply = reply) :
    Runs (session.map fun x => (x.1.op, x.2)) (view s.host) (view s'.host) ∧ s'.sock.Writable := by
  obtain ⟨run, hsame, hrun, hw'⟩ := hsession.runs hserver hfair hw
  have hid : run.map (fun x => (x.1, x.1.carried x.2)) = run := by
    refine (List.map_congr_left fun x hx => ?_).trans (List.map_id run)
    have hmem : (x.1, x.1.carried x.2) ∈ session := hsame ▸ List.mem_map_of_mem hx
    exact Prod.ext rfl (hexact _ hmem x.2)
  rw [hsame, hid]
  exact ⟨hrun, hw'⟩

/-! ## No acceptable request ends the thread -/

/-- A turn that goes on has not crashed. -/
theorem requestTurn_live {packet packet' : List Byte} {s s' : Client σ}
    (hturn : requestTurn h e packet s = .next packet' s') : s'.crashed = false := by
  unfold requestTurn at hturn
  dsimp only at hturn
  split at hturn
  · cases hturn
  unfold headerTurn at hturn
  dsimp only at hturn
  split at hturn
  · cases hturn
  unfold bodyTurn at hturn
  dsimp only at hturn
  split at hturn
  · cases hturn
  unfold serveTurn at hturn
  dsimp only at hturn
  split at hturn
  · cases hturn
  · rename_i hcrash
    cases hturn
    exact Bool.eq_false_iff.mpr hcrash

theorem Session.live {session : List (FileCall × Reply Byte)} {s s' : Client σ}
    (hsession : Session h e view P session s s') (hlive : s.crashed = false) : s'.crashed = false := by
  induction hsession with
  | nil s => exact hlive
  | cons hcall hturn hrest ih =>
    obtain ⟨a, rest, packet, packet', -, hturn⟩ := hturn
    exact ih (requestTurn_live hturn)

/-- An acceptable request is well formed. -/
theorem FileCall.wellFormed {c : FileCall} {fs : HostFiles} (hfair : c.Acceptable fs) :
    c.request.WellFormed := by
  cases c with
  | «open» flags path =>
    refine ⟨(Fields.open flags path).payload_length, ?_, rfl⟩
    show 266 ≤ 6 + (be32 flags ++ path.bytes).length
    rw [List.length_append, be32_length, path.length_eq]
  | close fd => exact ⟨(Fields.close fd).payload_length, Nat.le_refl 10, rfl⟩
  | read fd size => exact ⟨(Fields.read fd size).payload_length, Nat.le_refl 14, rfl⟩
  | write fd data =>
    have hlt : data.length < 2 ^ 31 := hfair.2
    have hsize : (net32 (be32 fd ++ be32 (.ofNat 32 data.length)) 4).toNat = data.length := by
      have hword := @net32_be32 (be32 fd) [] 4 (.ofNat 32 data.length) (be32_length fd)
      rw [List.append_nil] at hword
      rw [hword, BitVec.toNat_ofNat, Nat.mod_eq_of_lt (by omega)]
    refine ⟨(Fields.write fd (.ofNat 32 data.length)).payload_length, Nat.le_refl 14, ?_, ?_⟩
    · show (net32 (be32 fd ++ be32 (.ofNat 32 data.length)) 4).toNat < 2 ^ 31
      rw [hsize]
      exact hlt
    · exact hsize.symm
  | lseek fd offset whence =>
    refine ⟨?_, Nat.le_refl 18, rfl⟩
    show 12 ≤ 512
    decide

include hserver in
/-- The next acceptable request is taken off the stream, and the thread goes on. -/
theorem FileCall.continues {c : FileCall} {s : Client σ} (hfair : c.Acceptable (view s.host))
    (hlive : s.crashed = false) (packet rest : List Byte) (a : List Arrival)
    (ha : arrivedBytes a = c.request.bytes ++ rest) :
    ∃ packet' s', requestTurn h e packet (s.arrive a) = .next packet' s' ∧ s'.sock.incoming = rest := by
  have halloc : ∀ k, c.request.kind = some k →
      (c.request.operation e k packet).Allocated h (s.arrive a) := by
    intro k hk
    unfold Request.operation
    cases k with
    | write => exact fun _ => hserver.allocates _ _
    | _ => trivial
  have hdef : ∀ k, c.request.kind = some k →
      (c.request.operation e k packet).Defined h (s.arrive a) := by
    intro k hk
    have hcases : k = .open ∨ k = .close ∨ k = .read ∨ k = .write ∨ k = .lseek := by
      cases c <;> cases hk <;> decide
    rcases hcases with rfl | rfl | rfl | rfl | rfl <;> trivial
  obtain ⟨packet', s', bs, hturn, -, hin, -, -⟩ :=
    requestTurn_answered h e (FileCall.wellFormed hfair) (s := s.arrive a) hlive ha halloc hdef
  exact ⟨packet', s', hturn, hin⟩

variable {flags : Word} {path : PathField} {fd : Word}

/-- What an upload is answered is not cut. -/
theorem uploading_exact {result : Int} {chunks : List (List Byte)} :
    ∀ x ∈ uploading flags path fd result chunks, ∀ reply, x.1.carried reply = reply := by
  intro x hx reply
  rcases List.mem_cons.mp hx with rfl | hx
  · rfl
  · rcases List.mem_append.mp hx with hx | hx
    · obtain ⟨chunk, -, rfl⟩ := List.mem_map.mp hx
      rfl
    · rw [List.eq_of_mem_singleton hx]
      rfl

/-- Nor is what a download is answered. -/
theorem downloading_exact {reads : List (Word × List Byte)} {last : Word} :
    ∀ x ∈ downloading flags path fd reads last, ∀ reply, x.1.carried reply = reply := by
  intro x hx reply
  rcases List.mem_cons.mp hx with rfl | hx
  · rfl
  · rcases List.mem_append.mp hx with hx | hx
    · obtain ⟨r, -, rfl⟩ := List.mem_map.mp hx
      rfl
    · rw [List.eq_of_mem_singleton hx]
      rfl

/-- What an upload asks the file service for. -/
theorem uploading_ops {result : Int} {chunks : List (List Byte)}
    (htruncate : fixFlags flags &&& O_TRUNC ≠ 0) :
    (uploading flags path fd result chunks).map (fun x => (x.1.op, x.2)) =
      upload (hostPath path.path) (fixFlags flags &&& O_ACCMODE != O_WRONLY)
        (fixFlags flags &&& O_APPEND != 0) fd.toInt result chunks := by
  unfold uploading upload
  rw [List.map_cons, List.map_append, List.map_map]
  show (Op.open _ _ _ (fixFlags flags &&& O_TRUNC != 0), _) :: _ = _
  rw [bne_iff_ne.mpr htruncate]
  rfl

/-- What a download asks it for. -/
theorem downloading_ops {reads : List (Word × List Byte)} {last : Word}
    (hkeep : fixFlags flags &&& O_TRUNC = 0) :
    (downloading flags path fd reads last).map (fun x => (x.1.op, x.2)) =
      download (hostPath path.path) (fixFlags flags &&& O_ACCMODE != O_WRONLY)
        (fixFlags flags &&& O_APPEND != 0) fd.toInt (reads.map fun r => (r.1.toNat, r.2)) last.toNat := by
  unfold downloading download
  rw [List.map_cons, List.map_append, List.map_map, List.map_map]
  show (Op.open _ _ _ (fixFlags flags &&& O_TRUNC != 0), _) :: _ = _
  rw [hkeep]
  rfl

include hserver in
/-- A file that is written through the thread and read back has the data written, if it is not touched
in between. -/
theorem upload_download {flags' fd' last : Word} {result : Int} {chunks : List (List Byte)}
    {between : List (FileCall × Reply Byte)} {reads : List (Word × List Byte)} {i : Nat}
    {s s₁ s₂ s₃ : Client σ} (hw : s.sock.Writable)
    (hfile : (view s.host).lookup (hostPath path.path) = some i)
    (htruncate : fixFlags flags &&& O_TRUNC ≠ 0) (hkeep : fixFlags flags' &&& O_TRUNC = 0)
    (hfd : 0 ≤ fd.toInt) (hfd' : 0 ≤ fd'.toInt) (hlast : 0 < last.toNat)
    (hup : Session h e view (fun c fs => c.Acceptable fs) (uploading flags path fd result chunks) s s₁)
    (hbetween : Session h e view (FileCall.Spares i) between s₁ s₂)
    (hdown : Session h e view (fun c fs => c.Acceptable fs)
      (downloading flags' path fd' reads last) s₂ s₃) :
    (reads.map Prod.snd).flatten = chunks.flatten := by
  have hspares : ∀ c fs, FileCall.Spares i c fs → c.Acceptable fs := fun c fs hspared => hspared.1
  obtain ⟨hupload, hw₁⟩ := hup.exactly hserver (fun _ _ => id) hw uploading_exact
  obtain ⟨run, -, hrun, hw₂⟩ := hbetween.runs hserver hspares hw₁
  obtain ⟨hdownload, -⟩ := hdown.exactly hserver (fun _ _ => id) hw₂ downloading_exact
  rw [uploading_ops htruncate] at hupload
  rw [downloading_ops hkeep] at hdownload
  have hsame := hbetween.spares hserver hspares (fun c fs hspared => hspared.2) hw₁
  have hback := hupload.there_and_back hfd hfd' hlast hrun (fun j hj => ?_) hdownload
  · rw [List.map_map] at hback
    exact hback
  · rw [hupload.lookup, hfile] at hj
    cases hj
    exact hsame

/-! ## Sessions there are -/

/-- The host of the examples has memory, and its failing opens change nothing. -/
theorem fileHost_server : FileServer fileHost id where
  toPosixHost := fileHost_posix
  allocates _ _ := nofun
  openFails := by
    intro fs path flags mode hfail
    show (fileHost.call (.open path flags mode) fs).2 = fs
    cases hpath : fs.lookup path with
    | none =>
      simp only [fileHost, hpath]
      split <;> rfl
    | some i =>
      rw [fileHost_open flags mode hpath] at hfail ⊢
      by_cases hfree : fs.opened 3 ≠ none
      · rw [if_pos hfree]
      · rw [if_neg hfree] at hfail
        exact absurd (show (3 : Int) = -1 from hfail) (by decide)

/-- Every acceptable request has a turn. -/
theorem FileCall.turnOn {c : FileCall} {s : Client HostFiles} (hfair : c.Acceptable s.host)
    (hw : s.sock.Writable) (hlive : s.crashed = false) :
    ∃ s', TurnOn fileHost .little c.request s s' ∧ c.Turned id s s' ∧ s'.crashed = false := by
  let a := (Socket.receiving c.request.bytes).arrivals
  have ha : arrivedBytes a = c.request.bytes ++ [] := by
    rw [List.append_nil]
    exact incoming_receiving _
  obtain ⟨packet', s', hturn, -⟩ :=
    FileCall.continues (e := .little) fileHost_server hfair hlive [] [] a ha
  have hon : TurnOn fileHost .little c.request s s' := ⟨a, [], [], packet', ha, hturn⟩
  exact ⟨s', hon, FileCall.turned fileHost_server hfair hw hon, requestTurn_live hturn⟩

/-- The file `a` can be opened as descriptor 3, if it is not open already. -/
theorem open_session {flags : Word} {s : Client HostFiles}
    (hfair : (FileCall.open flags pathA).Acceptable s.host) (hfile : s.host.lookup [ascii 'a'] = some 0)
    (hfree : s.host.opened 3 = none) (hw : s.sock.Writable) (hlive : s.crashed = false) :
    ∃ s', TurnOn fileHost .little (FileCall.open flags pathA).request s s' ∧
      answerResult s s' = 3 ∧ s'.host = HostFiles.open s.host 0 (fixFlags flags) 3 ∧
      s'.sock.Writable ∧ s'.crashed = false := by
  obtain ⟨s', hturn, hanswer, hw', hlive', -⟩ := open_turnOn .little flags hfile hfree hw hlive
  obtain ⟨reply, hreply, hserves, -⟩ := FileCall.turned fileHost_server hfair hw hturn
  have hthree : reply = .result 3 := hreply.symm.trans (congrArg Reply.result hanswer)
  rw [hthree] at hserves
  obtain ⟨i, hi, hopened⟩ := hserves.opened_at (by decide)
  have hzero : i = 0 := by
    rw [hostPath_pathA] at hi
    exact Option.some.inj (hi.symm.trans hfile)
  rw [hzero] at hopened
  exact ⟨s', hturn, hanswer, hopened, hw', hlive'⟩

theorem open_acceptable {flags : Word} {fs : HostFiles} (hfile : fs.lookup [ascii 'a'] = some 0)
    (haccess : fixFlags flags &&& O_TRUNC = 0 ∨ fixFlags flags &&& O_ACCMODE ≠ O_RDONLY) :
    (FileCall.open flags pathA).Acceptable fs := by
  refine ⟨pathA_ne_ping, ?_, haccess⟩
  rw [hostPath_pathA, hfile]
  exact nofun

/-- Before the file `a` is written. -/
def fresh : Client HostFiles := .initial (oneFile [1]) (.receiving [])

theorem fresh_writable : fresh.sock.Writable := List.not_mem_nil

/-- The file `a` gets the content `[7]`. -/
theorem upload_session : ∃ (result : Int) (s' : Client HostFiles),
    Session fileHost .little id (fun c fs => c.Fair fs) (uploading 2 pathA 3 result [[7]]) fresh s' ∧
      s'.sock.Writable ∧ s'.crashed = false ∧ s'.host.lookup [ascii 'a'] = some 0 ∧
      s'.host.opened 3 = none ∧ s'.host.content 0 = [7] := by
  have hfile := oneFile_lookup [1]
  have hopens : (FileCall.open 2 pathA).Acceptable (id fresh.host) :=
    open_acceptable hfile (.inr (by decide))
  obtain ⟨s₁, hopen, hthree, hhost₁, hw₁, hlive₁⟩ :=
    open_session hopens hfile rfl fresh_writable rfl
  have hf : s₁.host.opened (3 : Word).toInt = some ⟨0, 0, false, false⟩ := by
    rw [hhost₁]
    rfl
  have hwrites : (FileCall.write 3 [7]).Acceptable (id s₁.host) := by
    refine ⟨?_, by decide⟩
    rw [id_eq, hf]
    exact nofun
  obtain ⟨s₂, hwrite, hone, hlive₂, -⟩ :=
    write_turnOn .little hf (show [7].length ≤ 65536 by decide) hw₁ hlive₁
  have hreply₁ : (FileCall.write 3 [7]).reply (answer s₁ s₂) = .result 1 := congrArg Reply.result hone
  obtain ⟨reply, hreply, hserves, hw₂⟩ :=
    FileCall.turned (c := .write 3 [7]) fileHost_server hwrites hw₁ hwrite
  rw [show reply = .result 1 from hreply.symm.trans hreply₁] at hserves
  have hhost₂ : s₂.host = s₁.host.write 3 [7] := hserves.written_whole rfl
  obtain ⟨s₃, hclose, ⟨reply₃, -, hserves₃, hw₃⟩, hlive₃⟩ :=
    FileCall.turnOn (c := .close 3) (s := s₂) trivial hw₂ hlive₂
  have hcloses : ∀ fd, FileCall.close 3 = .close fd → s₂.host.opened fd.toInt ≠ none := by
    rintro fd ⟨⟩
    rw [hhost₂, hhost₁]
    exact nofun
  have hsession : Session fileHost .little id (fun c fs => c.Fair fs) _ fresh s₃ :=
    .cons (c := .open 2 pathA) ⟨hopens, nofun⟩ hopen (.cons (c := .write 3 [7]) ⟨hwrites, nofun⟩ hwrite
      (.cons (c := .close 3) ⟨trivial, hcloses⟩ hclose (.nil s₃)))
  rw [hreply₁, show (FileCall.open 2 pathA).reply (answer fresh s₁) = .result 3 from
    congrArg Reply.result hthree] at hsession
  refine ⟨answerResult s₂ s₃, s₃, hsession, hw₃, hlive₃, ?_⟩
  rw [show s₃.host = (s₁.host.write 3 [7]).close 3 from hserves₃.closed_at.trans (by rw [hhost₂]; rfl),
    hhost₁]
  exact ⟨rfl, rfl, rfl⟩

/-- A `read` of one byte has the next byte, if there is one. -/
theorem read_one {c : List Byte} {f : OpenFile Nat} {s : Client HostFiles} (hw : s.sock.Writable)
    (hlive : s.crashed = false) (hf : s.host.opened 3 = some f) (hreadable : f.readable = true)
    (hrest : (s.host.content f.inode).drop f.position = c) (hc : c.length ≤ 1) :
    ∃ s', TurnOn fileHost .little (FileCall.read 3 1).request s s' ∧
      (FileCall.read 3 1).reply (answer s s') = .data c ∧ s'.sock.Writable ∧ s'.crashed = false ∧
      s'.host.opened 3 = some { f with position := f.position + c.length } ∧
      s'.host.content f.inode = s.host.content f.inode := by
  obtain ⟨s', hturn, ⟨reply, hreply, hserves, hw'⟩, hlive'⟩ :=
    FileCall.turnOn (c := .read 3 1) (s := s) ⟨⟨f, hf, hreadable⟩, by decide⟩ hw hlive
  have hdata : reply = .data ((answer s s').drop 14) := hreply.symm
  rw [hdata] at hserves
  obtain ⟨hfront, hmoved, hend⟩ := hserves.read_data hf
  rw [hrest] at hfront hend
  -- Nothing is read only when there is nothing.
  have hall : (answer s s').drop 14 = c := by
    refine hfront.eq_of_length_le ?_
    by_cases hnone : (answer s s').drop 14 = []
    · rw [hend hnone (by decide)]
      exact Nat.zero_le _
    · have := List.length_pos_iff.mpr hnone
      omega
  rw [hall] at hmoved
  refine ⟨s', hturn, congrArg Reply.data hall, hw', hlive', hmoved, ?_⟩
  exact hserves.frame (fun htouches => htouches)

/-- The file `a` is written, and read byte by byte. -/
theorem upload_download_byte : ∃ (result : Int) (s₁ s₃ : Client HostFiles),
    Session fileHost .little id (fun c fs => c.Acceptable fs)
        (uploading 2 pathA 3 result [[7]]) fresh s₁ ∧
      Session fileHost .little id (fun c fs => c.Acceptable fs)
        (downloading 1 pathA 3 [(1, [7])] 1) s₁ s₃ ∧
      ([((1 : Word), [(7 : Byte)])].map Prod.snd).flatten = [[7]].flatten := by
  obtain ⟨result, s₁, hfairly, hw₁, hlive₁, hfile, hfree, hcontent⟩ := upload_session
  have hup := hfairly.mono fun c fs hfair => hfair.1
  have hfair : (FileCall.open 1 pathA).Acceptable (id s₁.host) :=
    open_acceptable hfile (.inl (by decide))
  obtain ⟨s₂, hopen, hthree, hhost₂, hw₂, hlive₂⟩ := open_session hfair hfile hfree hw₁ hlive₁
  have hf : s₂.host.opened 3 = some ⟨0, 0, true, false⟩ := by
    rw [hhost₂]
    rfl
  have hsame : s₂.host.content 0 = [7] := by
    rw [hhost₂]
    exact hcontent
  obtain ⟨s₃, hread, hdata, hw₃, hlive₃, hf₃, hsame₃⟩ :=
    read_one (c := [7]) hw₂ hlive₂ hf rfl hsame (Nat.le_refl 1)
  have hend : (s₃.host.content 0).drop 1 = [] := by
    rw [show s₃.host.content 0 = _ from hsame₃, hsame]
    rfl
  obtain ⟨s₄, hlast, hnone, -⟩ := read_one (c := []) hw₃ hlive₃ hf₃ rfl hend (Nat.zero_le 1)
  have hcalls : Session fileHost .little id (fun c fs => c.Acceptable fs) _ s₁ s₄ :=
    .cons (c := .open 1 pathA) hfair hopen
      (.cons (c := .read 3 1) ⟨⟨_, hf, rfl⟩, by decide⟩ hread
        (.cons (c := .read 3 1) ⟨⟨_, hf₃, rfl⟩, by decide⟩ hlast (.nil s₄)))
  rw [hdata, hnone, show (FileCall.open 1 pathA).reply (answer s₁ s₂) = .result 3 from
    congrArg Reply.result hthree] at hcalls
  have hdown : Session fileHost .little id (fun c fs => c.Acceptable fs)
    (downloading 1 pathA 3 [(1, [7])] 1) s₁ s₄ := hcalls
  have hstart : (id fresh.host).lookup (hostPath pathA.path) = some 0 := oneFile_pathA [1]
  have hback := upload_download fileHost_server fresh_writable hstart (by decide) (by decide)
    (by decide) (by decide) (by decide) hup (.nil s₁) hdown
  exact ⟨result, s₁, s₄, hup, hdown, hback⟩

end Ps2link

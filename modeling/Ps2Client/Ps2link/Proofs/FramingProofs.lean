import Ps2Client.Ps2link.Proofs.ThreadProofs

/-!
# Proofs: the request connection stays in step

One turn takes one request off the stream and sends its answer; by induction a run of the thread
does so for a whole sequence of requests.
-/

namespace Ps2link

open CMemory Network Utility

variable {σ : Type} (h : Host σ) (e : Endian)

/-! ## The packet in the buffer -/

theorem Kind.decode_kind (k : Kind) (m : List Byte) : (k.decode e m).kind = k := by
  cases k <;> rfl

theorem net32_inBuffer_number (number : Word) (payload packet : List Byte) :
    net32 (inBuffer number payload packet) 0 = number :=
  @net32_be32 [] _ 0 number rfl

theorem byteAt_inBuffer (number : Word) {payload : List Byte} (packet : List Byte) {i : Nat}
    (hi : i < payload.length) : byteAt (inBuffer number payload packet) (6 + i) = byteAt payload i := by
  rw [inBuffer, ← List.append_assoc]
  have hright := byteAt_append_right (be32 number ++ be16 (.ofNat 16 (6 + payload.length)))
    (payload ++ packet.drop (6 + payload.length)) i
  rw [List.length_append, be32_length, be16_length] at hright
  exact hright.trans (byteAt_append_left _ _ hi)

theorem net32_inBuffer (number : Word) {payload : List Byte} (packet : List Byte) (off : Nat)
    (hoff : off + 4 ≤ payload.length) :
    net32 (inBuffer number payload packet) (6 + off) = net32 payload off := by
  refine net32_congr fun i hi => ?_
  rw [Nat.add_assoc]
  exact byteAt_inBuffer number packet (by omega)

/-- A field in network byte order. -/
theorem net32_inBuffer_be32 (number w : Word) {pre more : List Byte} {off : Nat}
    (packet : List Byte) (hpre : pre.length = off) :
    net32 (inBuffer number (pre ++ (be32 w ++ more)) packet) (6 + off) = w := by
  have hlen : off + 4 ≤ (pre ++ (be32 w ++ more)).length := by
    simp
    omega
  rw [net32_inBuffer number packet off hlen, net32_be32 w hpre]

/-- Behind the header there are the payload and what earlier packets left. -/
theorem drop_inBuffer (number : Word) (payload before : List Byte) (off : Nat) :
    (inBuffer number payload before).drop (6 + off) =
      (payload ++ before.drop (6 + payload.length)).drop off := by
  rw [inBuffer, ← List.append_assoc, ← List.drop_drop, List.drop_left' (by simp)]

/-- A path with its NUL inside the packet ends inside the array, whatever was there before. -/
theorem pathEnds_inBuffer {k : Kind} (number : Word) {payload : List Byte} (before : List Byte)
    (hlen : payload.length ≤ 512)
    (hnul : ∀ off, k.pathOffset = some (6 + off) → 0 ∈ payload.drop off) :
    k.PathEnds (inBuffer number payload before) := by
  intro off hoff
  obtain ⟨j, rfl⟩ : ∃ j, off = 6 + j := by
    refine ⟨off - 6, ?_⟩
    cases k <;> cases hoff <;> rfl
  have hmem := hnul j hoff
  have hle : j ≤ payload.length := by
    by_contra hlt
    rw [List.drop_eq_nil_of_le (by omega)] at hmem
    cases hmem
  rw [List.drop_take, drop_inBuffer, List.drop_append_of_le_length hle, List.take_append,
    List.take_of_length_le (by rw [List.length_drop]; omega)]
  exact List.mem_append_left _ hmem

/-! ## Answers -/

theorem send_sent (s : Client σ) {buffer : List Byte} {size : Int}
    (hsize : size.toNat = buffer.length) (hw : s.sock.Writable) :
    (s.send buffer size).2.sock.sent = s.sock.sent ++ buffer := by
  have hemitted := networkSend_emitted s.sock buffer hsize
  rw [peek_self] at hemitted
  exact hemitted.sent_writable hw

theorem answer_eq {s s' : Client σ} {bs : List Byte} (hsent : s'.sock.sent = s.sock.sent ++ bs) :
    answer s s' = bs := by
  rw [answer, hsent, List.drop_left]

/-- The first field of a response. -/
theorem answerResult_eq (number : Word) (length : Half) (result : Int) (more : List Byte)
    {s s' : Client σ} (hsent : s'.sock.sent =
      s.sock.sent ++ (headerBytes e number length ++ (intBytes e result ++ more))) :
    answerResult s s' = toInt32 result := by
  have hfield : net32 (headerBytes e number length ++ (be32 (.ofInt 32 result) ++ more)) 6 =
      .ofInt 32 result := net32_be32 _ (by rw [headerBytes_eq]; rfl)
  rw [answerResult, answer_eq hsent, intBytes_eq, hfield]
  rfl

/-- The only field of a response, on a connection that takes it. -/
theorem answerResult_responseResult (number : Word) (result : Int) (s s₁ : Client σ)
    (hsent : s₁.sock.sent = s.sock.sent) (hw : s₁.sock.Writable) :
    answerResult s (responseResult e number result s₁).2 = toInt32 result := by
  have hlen : (10 : Int).toNat = (headerBytes e number 10 ++ intBytes e result).length := by
    simp [headerBytes_eq, intBytes_eq]
  have hall := send_sent s₁ hlen hw
  rw [hsent] at hall
  refine answerResult_eq e number 10 result [] (hall.trans ?_)
  rw [List.append_nil]

theorem send_writable (s : Client σ) (buffer : List Byte) (size : Int) (hw : s.sock.Writable) :
    (s.send buffer size).2.sock.Writable := by
  have hsent := networkSend_emitted s.sock buffer (show size.toNat = size.toNat from rfl)
  exact fun hfail => hw (hsent.outcomes.subset hfail)

/-! ## Writing -/

/-- A write with all its data: exactly the data are taken off the stream and written, and one
response is sent. -/
theorem receiveAndWrite_enough (buffer : List Byte) (fd : Word) {size : Word} {s : Client σ}
    {data rest : List Byte} (hin : s.sock.incoming = data ++ rest)
    (hlen : data.length = size.toNat) (hsize : size.toNat < 2 ^ 31) :
    ∃ a, arrivedBytes a = rest ∧ receiveAndWrite h e buffer fd size s =
      (0, (responseWrite e (toInt32 ((s.arrive a).call h (.write fd.toInt data)).1)
        ((s.arrive a).call h (.write fd.toInt data)).2).2) := by
  have hint : size.toInt = (size.toNat : Int) := BitVec.toInt_eq_toNat_of_lt (by omega)
  obtain ⟨a, hrun, ha⟩ := receiveAll_enough size.toNat hin hlen
  refine ⟨a, ha, ?_⟩
  have hdata : peek (poke buffer 0 data) 0 size.toNat = data := by
    rw [← hlen]
    exact peek_poke data (Nat.zero_le _)
  unfold receiveAndWrite
  rw [hint, hrun]
  refine (if_neg (by omega)).trans ?_
  rw [hdata]

/-- `s'` is reached from `s` by taking the stream down to `rest` and sending a response of kind
`k`. -/
structure Answered (k : Kind) (rest : List Byte) (s s' : Client σ) : Prop where
  incoming : s'.sock.incoming = rest
  emitted : ∃ bs, IsResponse k bs ∧ Emitted s.sock s'.sock bs
  crashed : s'.crashed = s.crashed

theorem Responds.answered {k : Kind} {s s' : Client σ} {a : List Arrival}
    (hr : Responds k (s.arrive a) s') : Answered k (arrivedBytes a) s s' where
  incoming := congrArg arrivedBytes hr.arrivals
  emitted := by
    obtain ⟨bs, hbs, hsent⟩ := hr.emitted
    exact ⟨bs, hbs, hsent.sent, hsent.dead, hsent.outcomes⟩
  crashed := hr.crashed

theorem performWrite_answered (fd : Word) {size : Word} {s : Client σ} {data rest : List Byte}
    (hin : s.sock.incoming = data ++ rest) (hlen : data.length = size.toNat)
    (hsize : size.toNat < 2 ^ 31) (halloc : (Operation.write fd size).Allocated h s) :
    Answered .write rest s (performWrite h e fd size s).2 := by
  have hwrite : ∀ (buffer : List Byte) (s₁ : Client σ), s₁.sock = s.sock → s₁.crashed = s.crashed →
      Answered .write rest s (receiveAndWrite h e buffer fd size s₁).2 := by
    intro buffer s₁ hsock hcrashed
    rw [← hsock] at hin
    obtain ⟨a, rfl, hrun⟩ := receiveAndWrite_enough h e buffer fd hin hlen hsize
    rw [hrun]
    refine Responds.answered (responseResult_responds e .write rfl rfl ?_ hcrashed)
    exact congrArg (fun t : Socket => { t with arrivals := a }) hsock
  unfold performWrite
  dsimp only
  split
  · rename_i hbig
    split
    · rename_i hnull
      exact absurd hnull (halloc hbig)
    · exact hwrite _ _ rfl rfl
  · exact hwrite _ _ rfl rfl

/-! ## One request -/

theorem perform_answered {op : Operation} (hop : op.kind ≠ .write) {s : Client σ}
    (hdef : op.Defined h s) (a : List Arrival) :
    Answered op.kind (arrivedBytes a) s (op.perform h e (s.arrive a)).2 := by
  have hdef' : op.Defined h (s.arrive a) := by cases op <;> exact hdef
  rcases perform_concludes h e op hop (s.arrive a) with hr | ⟨hundef, -, -⟩
  · exact hr.answered
  · exact absurd hdef' hundef

/-- What is taken off the stream after the packet is the data of the request. -/
theorem operation_answered {r : Request} {k : Kind} (hr : r.WellFormed) (hk : r.kind = some k)
    {packet rest : List Byte} {s : Client σ} {a : List Arrival} (ha : arrivedBytes a = r.data ++ rest)
    (halloc : (r.operation e k packet).Allocated h s) (hdef : (r.operation e k packet).Defined h s) :
    Answered k rest s ((r.operation e k packet).perform h e (s.arrive a)).2 := by
  obtain ⟨-, hkind⟩ := hr
  rw [hk] at hkind
  by_cases hw : k = .write
  · subst hw
    obtain ⟨hcover, hsize, hlen⟩ := hkind
    have hfield : net32 (inBuffer r.number r.payload packet) 10 = net32 r.payload 4 :=
      net32_inBuffer r.number packet 4 (by omega)
    have hop : r.operation e .write packet =
        .write (net32 (inBuffer r.number r.payload packet) 6) (net32 r.payload 4) := by
      rw [← hfield]
      rfl
    rw [hop] at halloc ⊢
    have hans := performWrite_answered (s := s.arrive a) h e
      (net32 (inBuffer r.number r.payload packet) 6) ha hlen hsize halloc
    obtain ⟨bs, hbs, hsent⟩ := hans.emitted
    exact ⟨hans.incoming, ⟨bs, hbs, hsent.sent, hsent.dead, hsent.outcomes⟩, hans.crashed⟩
  · have hdata : r.data = [] := by
      revert hkind
      cases k <;> first | exact absurd rfl hw | exact fun hk => hk.2
    have hkind' : (r.operation e k packet).kind = k := Kind.decode_kind e k _
    have hans := perform_answered h e (by rwa [hkind']) hdef a
    rw [hkind', ha, hdata, List.nil_append] at hans
    exact hans

theorem serveTurn_live {packet : List Byte} {s : Client σ}
    (hlive : (dispatch h e packet s).2.2.crashed = false) :
    serveTurn h e packet s =
      .next (dispatch h e packet s).1 (setActivity h (dispatch h e packet s).2.2) := by
  unfold serveTurn
  cases hrun : dispatch h e packet s with
  | mk packet' result =>
    rw [hrun] at hlive
    exact if_neg (by simpa using hlive)

/-- The turn on a packet of a known kind performs the operation it decodes to. -/
theorem requestTurn_operation {k : Kind} {number : Word} {payload rest packet : List Byte}
    {op : Operation} {s : Client σ} (hnumber : number = k.request) (hlen : payload.length ≤ 512)
    (hop : k.decode e (inBuffer number payload packet) = op)
    (hin : s.sock.incoming =
      be32 number ++ (be16 (.ofNat 16 (6 + payload.length)) ++ (payload ++ rest))) :
    ∃ a, arrivedBytes a = rest ∧ ((op.perform h e (s.arrive a)).2.crashed = false →
      ∃ packet', requestTurn h e packet s =
        .next packet' (setActivity h (op.perform h e (s.arrive a)).2)) := by
  obtain ⟨a, ha, hturn⟩ := requestTurn_packet h e hlen hin
  have hrun := dispatch_operation h e (s.arrive a)
    ((net32_inBuffer_number number payload packet).trans hnumber)
  rw [hop] at hrun
  refine ⟨a, ha, fun hlive => ⟨(dispatch h e (inBuffer number payload packet) (s.arrive a)).1, ?_⟩⟩
  rw [← hrun] at hlive ⊢
  rw [hturn, serveTurn_live h e hlive]

theorem serveTurn_crashed {packet : List Byte} {s : Client σ}
    (hcrash : (dispatch h e packet s).2.2.crashed = true) :
    serveTurn h e packet s = .crash (dispatch h e packet s).2.2 := by
  unfold serveTurn
  cases hrun : dispatch h e packet s with
  | mk packet' result =>
    rw [hrun] at hcrash
    exact if_pos hcrash

/-- One turn of the thread serves one request. -/
theorem requestTurn_answered {r : Request} (hr : r.WellFormed) {packet rest : List Byte}
    {s : Client σ} (hlive : s.crashed = false) (hin : s.sock.incoming = r.bytes ++ rest)
    (halloc : ∀ k, r.kind = some k → (r.operation e k packet).Allocated h s)
    (hdef : ∀ k, r.kind = some k → (r.operation e k packet).Defined h s) :
    ∃ packet' s' bs, requestTurn h e packet s = .next packet' s' ∧ s'.crashed = false ∧
      s'.sock.incoming = rest ∧ r.AnsweredBy bs ∧ Emitted s.sock s'.sock bs := by
  have hin' : s.sock.incoming = be32 r.number ++ (be16 (.ofNat 16 (6 + r.payload.length)) ++
      (r.payload ++ (r.data ++ rest))) := by
    rw [hin, Request.bytes]
    simp only [List.append_assoc]
  obtain ⟨a, ha, hturn⟩ := requestTurn_packet h e hr.1 hin'
  rw [hturn]
  unfold Request.AnsweredBy
  cases hk : r.kind with
  | none =>
    have hdata : r.data = [] := by
      have hkind := hr.2
      rw [hk] at hkind
      exact hkind
    have hunknown : Kind.ofNumber (net32 (inBuffer r.number r.payload packet) 0) = none := by
      rw [net32_inBuffer_number]
      exact hk
    have hrun := dispatch_unknown h e (s.arrive a) hunknown
    rw [serveTurn_live h e (by rw [hrun]; exact hlive), hrun]
    refine ⟨_, _, [], rfl, hlive, ?_, rfl, ?_⟩
    · rw [hdata] at ha
      exact ha
    · exact ⟨(Emitted.refl s.sock).sent, (Emitted.refl s.sock).dead, List.suffix_refl _⟩
  | some k =>
    have hnumber : net32 (inBuffer r.number r.payload packet) 0 = k.request := by
      rw [net32_inBuffer_number]
      exact Kind.request_of_ofNumber hk
    have hans := operation_answered h e hr hk ha (halloc k hk) (hdef k hk)
    rw [Request.operation, ← dispatch_operation h e (s.arrive a) hnumber] at hans
    obtain ⟨bs, hbs, hsent⟩ := hans.emitted
    have hcrashed := hans.crashed.trans hlive
    rw [serveTurn_live h e hcrashed]
    exact ⟨_, _, bs, rfl, hcrashed, hans.incoming, hbs, hsent⟩

/-! ## A run -/

/-- `n` turns that do not end the loop are followed by the rest of the run. -/
theorem threadRequest_turns {n : Nat} {packet packet' : List Byte} {s s' : Client σ}
    (hturns : requestTurns h e n packet s = .next packet' s') :
    threadRequest h e packet s = threadRequest h e packet' s' := by
  induction n generalizing packet s with
  | zero =>
    cases hturns
    rfl
  | succ n ih =>
    rw [requestTurns] at hturns
    cases hturn : requestTurn h e packet s with
    | next packet₁ s₁ =>
      rw [hturn] at hturns
      exact (threadRequest_next h e hturn).trans (ih hturns)
    | stop s₁ =>
      rw [hturn] at hturns
      cases hturns
    | crash s₁ =>
      rw [hturn] at hturns
      cases hturns

theorem requestTurns_answered (reqs : List Request) :
    ∀ (rest packet : List Byte) (s : Client σ), (∀ r ∈ reqs, r.WellFormed) → s.crashed = false →
    s.sock.incoming = (reqs.map Request.bytes).flatten ++ rest →
    Along h e (Operation.Allocated h) reqs packet s →
    AlongPackets h e (Kind.Defined h e) reqs packet s →
    ∃ packet' s' answers, requestTurns h e reqs.length packet s = .next packet' s' ∧
      s'.sock.incoming = rest ∧ List.Forall₂ Request.AnsweredBy reqs answers ∧
      Emitted s.sock s'.sock answers.flatten := by
  induction reqs with
  | nil =>
    intro rest packet s _ _ hin _ _
    exact ⟨packet, s, [], rfl, hin, .nil, Emitted.refl _⟩
  | cons r reqs ih =>
    intro rest packet s hwf hlive hin halloc hdef
    rw [List.map_cons, List.flatten_cons, List.append_assoc] at hin
    obtain ⟨packet₁, s₁, bs, hturn, hlive₁, hin₁, hbs, hsent⟩ :=
      requestTurn_answered h e (hwf r List.mem_cons_self) hlive hin halloc.1
        fun k hk => (hdef.1 k hk).2
    obtain ⟨packet', s', answers, hturns, hrest, hanswers, hsents⟩ :=
      ih rest packet₁ s₁ (fun r' hr' => hwf r' (List.mem_cons_of_mem r hr')) hlive₁ hin₁
        (halloc.2 _ _ hturn) (hdef.2 _ _ hturn)
    refine ⟨packet', s', bs :: answers, ?_, hrest, .cons hbs hanswers, hsent.trans hsents⟩
    rw [List.length_cons, requestTurns, hturn]
    exact hturns

/-- The request connection stays in step over every sequence of well-formed requests, as long as
no handler runs into a call that it does not check or over the end of an array. -/
theorem thread_inStep (reqs : List Request) (rest packet : List Byte) (s : Client σ)
    (hwf : ∀ r ∈ reqs, r.WellFormed) (hlive : s.crashed = false)
    (hin : s.sock.incoming = (reqs.map Request.bytes).flatten ++ rest)
    (halloc : Along h e (Operation.Allocated h) reqs packet s)
    (hdef : AlongPackets h e (Kind.Defined h e) reqs packet s) : InStep h e reqs rest packet s := by
  obtain ⟨packet', s', answers, hturns, hrest, hanswers, hsent⟩ :=
    requestTurns_answered h e reqs rest packet s hwf hlive hin halloc hdef
  have hrun := threadRequest_turns h e hturns
  refine ⟨packet', s', answers, hturns, hrun, hrest, hanswers, ?_, ?_⟩
  · obtain ⟨t, ht, hpre, -⟩ := hsent.sent
    refine ⟨t, ht, hpre, fun hw => ?_⟩
    have hall := hsent.sent_writable hw
    rw [ht] at hall
    exact List.append_cancel_left hall
  · intro number length more hmore hlength
    obtain ⟨a, ha, hstop⟩ := requestTurn_bad h e packet' hlength (hrest.trans hmore)
    exact ⟨a, ha, hrun.trans (threadRequest_stop h e hstop)⟩

/-- A `remove`, a `write` of three bytes whose header comes in pieces, and a header of length 5. -/
theorem thread_inStep_write :
    let r : Request := ⟨REQUEST_REMOVE, ascii 'a' :: List.replicate 255 0, []⟩
    let w : Request := ⟨REQUEST_WRITE, be32 3 ++ be32 3, [7, 8, 9]⟩
    let bad : List Byte := be32 REQUEST_CLOSE ++ be16 5
    InStep failingHost .little [r, w] bad []
      (.initial () ⟨[.segment 0xBA [0xBE], .interrupt, .segment 1 ((r.bytes ++ (w.bytes ++ bad)).drop 3)],
        false, [], []⟩) := by
  intro r w bad
  have hlen : r.payload.length = 256 := congrArg (· + 1) List.length_replicate
  have hdefined : ∀ packet' (s : Client Unit),
      Kind.Defined failingHost .little .remove (inBuffer r.number r.payload packet') s := by
    intro packet' s
    refine ⟨pathEnds_inBuffer _ _ (by omega) fun off hoff => ?_, trivial⟩
    obtain rfl : off = 0 := by simpa [Kind.pathOffset] using hoff
    exact List.mem_cons_of_mem _ (List.mem_replicate.mpr ⟨by decide, rfl⟩)
  have hsize : ∀ packet', net32 (inBuffer w.number w.payload packet') (6 + 4) = 3 := by
    intro packet'
    rw [net32_inBuffer w.number packet' 4 (by decide)]
    decide
  have hremove : r.WellFormed := by
    refine ⟨by omega, ?_⟩
    show 262 ≤ 6 + r.payload.length ∧ r.data = []
    exact ⟨by omega, rfl⟩
  have hwrite : w.WellFormed := ⟨by decide, by decide, by decide, by decide⟩
  refine thread_inStep _ _ _ _ _ _ ?_ rfl ?_ ?_ ?_
  · intro q hq
    rcases List.mem_cons.mp hq with rfl | hq
    · exact hremove
    · rw [List.mem_singleton.mp hq]
      exact hwrite
  · have hnumber : be32 r.number = [0xBA, 0xBE, 1, 0x91] := by decide
    have hsplit : r.bytes ++ (w.bytes ++ bad) =
        0xBA :: 0xBE :: 1 :: (r.bytes ++ (w.bytes ++ bad)).drop 3 := by
      rw [Request.bytes, hnumber, List.append_assoc]
      rfl
    rw [List.map_cons, List.map_singleton, List.flatten_cons, List.flatten_singleton,
      List.append_assoc, hsplit]
    generalize (r.bytes ++ (w.bytes ++ bad)).drop 3 = more
    exact congrArg (fun l => 0xBA :: 0xBE :: 1 :: l) (List.append_nil more)
  · refine ⟨fun k hk => ?_, fun packet' s' _ => ⟨fun k hk => ?_, fun _ _ _ => trivial⟩⟩
    · cases (show Kind.remove = k from Option.some.inj hk)
      trivial
    · cases (show Kind.write = k from Option.some.inj hk)
      exact fun hbig => absurd hbig (by rw [hsize]; decide)
  · refine ⟨fun k hk => ?_, fun packet' s' _ => ⟨fun k hk => ?_, fun _ _ _ => trivial⟩⟩
    · cases (show Kind.remove = k from Option.some.inj hk)
      exact hdefined _ _
    · cases (show Kind.write = k from Option.some.inj hk)
      exact ⟨nofun, trivial⟩

/-- A host that reports a time past the last year `localtime` can give. -/
def farFutureHost : Host Unit where
  call c u := (match c with
    | .stat _ => some ⟨0x81A4, 0, 0, 0, 67768036191676800⟩
    | c => c.failure, u)
  timeMs u := (0, u)
  localtime t := if t < 67768036191676800 then some ⟨70, 0, 1, 0, 0, 0⟩ else none
  uninit size u := (List.replicate size 0, u)
  uninitStat u := (⟨0, 0, 0, 0, 0⟩, u)

/-- The handler of `getstat` does not check what `localtime` returns: a file with such a time ends
the client, and the request gets no response. -/
theorem not_inStep_getstat :
    let r : Request := ⟨REQUEST_GETSTAT, ascii 'a' :: List.replicate 255 0, []⟩
    let s : Client Unit := .initial () (.receiving r.bytes)
    r.WellFormed ∧ s.crashed = false ∧ s.sock.incoming = ([r].map Request.bytes).flatten ++ [] ∧
      Along farFutureHost .little (Operation.Allocated farFutureHost) [r] [] s ∧
      ¬ InStep farFutureHost .little [r] [] [] s := by
  intro r s
  have hlen : r.payload.length = 256 := congrArg (· + 1) List.length_replicate
  have hin : s.sock.incoming = r.bytes := incoming_receiving _
  refine ⟨⟨by omega, ?_⟩, rfl, ?_, ⟨fun k hk => ?_, fun _ _ _ => trivial⟩, ?_⟩
  · show 262 ≤ _ ∧ _
    exact ⟨by omega, rfl⟩
  · rw [hin, List.append_nil, List.map_singleton, List.flatten_singleton]
  · cases (show Kind.getstat = k from Option.some.inj hk)
    trivial
  · rintro ⟨packet', s', answers, hturns, -⟩
    obtain ⟨a, -, hturn⟩ := requestTurn_packet farFutureHost .little (by omega) hin
    have hrun := dispatch_operation farFutureHost .little (s.arrive a) (k := .getstat)
      (net32_inBuffer_number r.number r.payload [])
    have hcrash : (dispatch farFutureHost .little (inBuffer r.number r.payload [])
        (s.arrive a)).2.2.crashed = true := by
      rw [hrun]
      rfl
    rw [List.length_singleton, requestTurns, hturn, serveTurn_crashed _ _ hcrash] at hturns
    cases hturns

end Ps2link

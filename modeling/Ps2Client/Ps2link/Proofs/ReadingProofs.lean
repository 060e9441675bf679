import Ps2Client.Ps2link.Reading
import Ps2Client.Ps2link.Proofs.SeekingProofs

/-!
# Proofs: reading a file
-/

namespace Ps2link

open CMemory Network Posix

/-! ## The data of the responses -/

theorem readAnswer_fields {chunk : List Byte} (hlen : chunk.length < 2 ^ 31) :
    (net32 (readAnswer chunk) 6).toInt = chunk.length ∧
      (net32 (readAnswer chunk) 10).toInt = chunk.length := by
  have hint : (BitVec.ofNat 32 chunk.length).toInt = chunk.length := by
    rw [← BitVec.ofInt_natCast]
    exact toInt32_of_fits (by omega) (by omega)
  have hresult : net32 (readAnswer chunk) 6 = .ofNat 32 chunk.length := by
    rw [readAnswer, ← List.append_assoc]
    exact net32_be32 _ (by simp)
  have hsize : net32 (readAnswer chunk) 10 = .ofNat 32 chunk.length := by
    rw [readAnswer, ← List.append_assoc, ← List.append_assoc]
    exact net32_be32 _ (by simp)
  rw [hresult, hsize]
  exact ⟨hint, hint⟩

/-- A response with data in front. -/
theorem Chunks.cons {content chunk : List Byte} {size : Word} {sizes : List Word}
    {chunks : List (List Byte)} (hsize : size.toNat < 2 ^ 31) (hasked : chunk.length ≤ size.toNat)
    (hpre : chunk <+: content) (hempty : chunk = [] → content = [])
    (hrest : Chunks (content.drop chunk.length) sizes chunks) :
    Chunks content (size :: sizes) (chunk :: chunks) where
  asked := .cons hasked hrest.asked
  fields := by
    intro c hc
    rcases List.mem_cons.mp hc with rfl | hc
    · exact readAnswer_fields (by omega)
    · exact hrest.fields c hc
  isPrefix := by
    obtain ⟨after, rfl⟩ := hpre
    have hafter := hrest.isPrefix
    rw [List.drop_left] at hafter
    rw [List.flatten_cons]
    exact (List.prefix_append_right_inj chunk).mpr hafter
  whole := by
    intro k hk
    cases k with
    | zero =>
      rw [List.getElem?_cons_zero] at hk
      rw [hempty (Option.some.inj hk)]
      rfl
    | succ k =>
      rw [List.getElem?_cons_succ] at hk
      obtain ⟨after, rfl⟩ := hpre
      have hafter := hrest.whole k hk
      rw [List.drop_left] at hafter
      rw [List.take_succ_cons, List.flatten_cons, hafter]
  ends := by
    intro hlong
    by_cases hnil : chunk = []
    · exact hnil ▸ List.mem_cons_self
    · refine List.mem_cons_of_mem _ (hrest.ends ?_)
      have hpos := List.length_pos_iff.mpr hnil
      rw [List.length_cons] at hlong
      rw [List.length_drop]
      have := hpre.length_le
      omega

/-! ## One request -/

variable {σ : Type} (h : Host σ) (e : Endian) {f : OpenFile Nat}

/-- A `read` with a buffer reads and sends, whichever buffer it is. -/
theorem performRead_allocated (hmalloc : Allocates h) (fd size : Word) (s : Client σ) :
    ∃ s₁ : Client σ, s₁.sock = s.sock ∧
      (s₁.host = s.host ∨ s₁.host = (h.call (.malloc size.toNat) s.host).2) ∧
      performRead h e fd size s = readAndSend h e fd size s₁ := by
  unfold performRead
  dsimp only
  split
  · split
    · rename_i hnone
      exact absurd hnone (hmalloc size.toNat s.host)
    · exact ⟨(s.call h (.malloc size.toNat)).2, rfl, .inr rfl, rfl⟩
  · exact ⟨s, rfl, .inl rfl, rfl⟩

variable {view : σ → HostFiles} (hposix : PosixHost h view)

include hposix in
/-- A `read` sends the next bytes of the file. -/
theorem read_turn (hmalloc : Allocates h) {fd size : Word} {s : Client σ} (a : List Arrival)
    (hopened : (view s.host).opened fd.toInt = some f) (hreadable : f.readable = true)
    (hsize : size.toNat < 2 ^ 31) (hw : s.sock.Writable) :
    let s' := setActivity h (performRead h e fd size (s.arrive a)).2
    ∃ n ≤ size.toNat,
      (n = 0 → size.toNat = 0 ∨ ((view s.host).content f.inode).length ≤ f.position) ∧
      answer s s' = readAnswer (((view s.host).content f.inode).drop f.position |>.take n) ∧
      view s'.host = ((view s.host).read fd.toInt n).2 := by
  obtain ⟨s₁, hsock, hhost, hperform⟩ := performRead_allocated h e hmalloc fd size (s.arrive a)
  have hview : view s₁.host = view s.host := by
    rcases hhost with hhost | hhost
    · rw [hhost]
    · rw [hhost]
      exact hposix.malloc ..
  rw [hperform]
  refine readAndSend_turn h e hposix hopened hreadable (.inl hsize) hview ?_ ?_
  · rw [hsock]
  · rw [hsock]
    exact hw

/-! ## The two buffers -/

theorem readAndSend_sock {fd size fd' size' : Word} {s s' : Client σ} {got : Option (List Byte)}
    (hsock : s.sock = s'.sock) (hgot : (h.call (.read fd.toInt size.toNat) s.host).1 = got)
    (hgot' : (h.call (.read fd'.toInt size'.toNat) s'.host).1 = got) :
    (readAndSend h e fd size s).2.sock = (readAndSend h e fd' size' s').2.sock := by
  unfold readAndSend responseRead Client.send
  dsimp only
  rw [hgot, hgot', hsock]

theorem buffersAlike (hmalloc : Allocates h) : BuffersAlike h e := by
  intro fd size fd' size' s s' got hsmall hbig hsock hgot hgot'
  have hfirst : performRead h e fd size s = readAndSend h e fd size s :=
    if_neg (Nat.not_lt.mpr hsmall)
  obtain ⟨block, hblock⟩ := Option.ne_none_iff_exists'.mp (hmalloc size'.toNat s'.host)
  have hsecond : performRead h e fd' size' s' =
      readAndSend h e fd' size' (s'.call h (.malloc size'.toNat)).2 := by
    unfold performRead
    rw [if_pos hbig]
    dsimp only
    rw [hblock]
  rw [hfirst, hsecond]
  exact readAndSend_sock h e hsock hgot hgot'

/-! ## Runs -/

theorem Chunks.nil (content : List Byte) : Chunks content [] [] where
  asked := .nil
  fields := nofun
  isPrefix := List.nil_prefix
  whole := nofun
  ends := nofun

include hposix in
/-- From any position on, the responses have the rest of the file. -/
theorem reads_from (hmalloc : Allocates h) {fd : Word} (sizes : List Word) (packet rest : List Byte)
    {s : Client σ} (hlive : s.crashed = false) (hw : s.sock.Writable)
    (hopened : (view s.host).opened fd.toInt = some f) (hreadable : f.readable = true)
    (hsizes : ∀ size ∈ sizes, 0 < size.toNat ∧ size.toNat < 2 ^ 31)
    (hin : s.sock.incoming =
      (sizes.map fun size => ((FileRequest.read size).request fd).bytes).flatten ++ rest) :
    ReadsExact h e (((view s.host).content f.inode).drop f.position) sizes packet s := by
  induction sizes generalizing packet s f with
  | nil => exact ⟨packet, s, [], rfl, (List.append_nil _).symm, Chunks.nil _⟩
  | cons size sizes ih =>
    rw [List.map_cons, List.flatten_cons, List.append_assoc] at hin
    obtain ⟨hpos, hsize⟩ := hsizes size List.mem_cons_self
    obtain ⟨a, packet₁, ha, hturn⟩ := requestTurn_file h e (.read size) fd packet hlive hin
    have hresponds := (FileRequest.read size).responds h e fd (s.arrive a)
    obtain ⟨n, hn, hzero, hanswer, hview⟩ :=
      read_turn h e hposix hmalloc a hopened hreadable hsize hw
    let s₁ := setActivity h ((FileRequest.operation fd (.read size)).perform h e (s.arrive a)).2
    rw [read_eq hopened] at hview
    generalize hchunk : ((view s.host).content f.inode |>.drop f.position |>.take n) = chunk
      at hanswer hview
    -- The position is behind the chunk, and the connection as before.
    have hopened₁ : (view s₁.host).opened fd.toInt =
        some { f with position := f.position + chunk.length } :=
      (congrArg (·.opened fd.toInt) hview).trans (moveTo_opened ..)
    have hcontent : (view s₁.host).content f.inode = (view s.host).content f.inode :=
      congrArg (·.content f.inode) hview
    obtain ⟨bs, -, hemitted⟩ := hresponds.emitted
    have hw₁ : s₁.sock.Writable := fun hfail => hw (hemitted.outcomes.subset hfail)
    have hsent₁ : s₁.sock.sent = s.sock.sent ++ readAnswer chunk := by
      have hbs : s₁.sock.sent = s.sock.sent ++ bs := hemitted.sent_writable hw
      rw [hbs, ← answer_eq hbs]
      exact congrArg (s.sock.sent ++ ·) hanswer
    have hin₁ : s₁.sock.incoming = _ := (congrArg arrivedBytes hresponds.arrivals).trans ha
    obtain ⟨packet', s', chunks, hturns, hsent', hchunks⟩ := ih packet₁ (s := s₁)
      (hresponds.crashed.trans hlive) hw₁ hopened₁ hreadable
      (fun size hmem => hsizes size (List.mem_cons_of_mem _ hmem)) hin₁
    rw [hcontent] at hchunks
    refine ⟨packet', s', chunk :: chunks, ?_, ?_, ?_⟩
    · rw [List.length_cons, requestTurns, hturn]
      exact hturns
    · rw [hsent', hsent₁, List.map_cons, List.flatten_cons, List.append_assoc]
    · subst hchunk
      have hasked : (((view s.host).content f.inode).drop f.position |>.take n).length ≤ size.toNat :=
        Nat.le_trans (List.length_take_le ..) hn
      refine Chunks.cons hsize hasked (List.take_prefix ..) ?_ ?_
      · -- Without data the end of the file is reached, as the size is not 0.
        intro hempty
        rcases List.take_eq_nil_iff.mp hempty with hn0 | hnil
        · rcases hzero hn0 with h0 | hend
          · omega
          · exact List.drop_eq_nil_of_le hend
        · exact hnil
      · rw [List.drop_drop]
        exact hchunks

include hposix in
/-- Whatever the sizes of the requests, the responses have the content of the file, exactly, and the
buffer that a `read` uses makes no difference to what is sent. -/
theorem reads_exact (hmalloc : Allocates h) {fd : Word} (sizes : List Word) (packet rest : List Byte)
    {s : Client σ} (hlive : s.crashed = false) (hw : s.sock.Writable)
    (hopened : (view s.host).opened fd.toInt = some f) (hreadable : f.readable = true)
    (hstart : f.position = 0) (hsizes : ∀ size ∈ sizes, 0 < size.toNat ∧ size.toNat < 2 ^ 31)
    (hin : s.sock.incoming =
      (sizes.map fun size => ((FileRequest.read size).request fd).bytes).flatten ++ rest) :
    ReadsExact h e ((view s.host).content f.inode) sizes packet s ∧ BuffersAlike h e := by
  have hreads := reads_from h e hposix hmalloc sizes packet rest hlive hw hopened hreadable hsizes hin
  rw [hstart, List.drop_zero] at hreads
  exact ⟨hreads, buffersAlike h e hmalloc⟩

/-- Three bytes, read with requests of two bytes and of more than the buffer holds. -/
theorem reads_exact_three :
    let sizes : List Word := [2, 65537, 1]
    let s : Client HostFiles := .initial (threeBytes 0)
      (.receiving ((sizes.map fun size => ((FileRequest.read size).request 3).bytes).flatten ++ []))
    ReadsExact fileHost .little [1, 2, 3] sizes [] s ∧ BuffersAlike fileHost .little := by
  intro sizes s
  refine reads_exact (s := s) (f := ⟨0, 0, true, false⟩) fileHost .little fileHost_posix
    (fun _ _ => nofun) sizes [] [] rfl List.not_mem_nil rfl rfl rfl ?_ (incoming_receiving _)
  intro size hsize
  rcases List.mem_cons.mp hsize with rfl | hsize
  · exact ⟨by decide, by decide⟩
  · rcases List.mem_cons.mp hsize with rfl | hsize
    · exact ⟨by decide, by decide⟩
    · rw [List.eq_of_mem_singleton hsize]
      exact ⟨by decide, by decide⟩

end Ps2link

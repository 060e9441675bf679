import Ps2Client.Ps2link.Joining
import Ps2Client.Ps2link.Proofs.DirectoriesProofs

/-!
# Proofs: the full names of directory entries
-/

namespace Ps2link

open CMemory Network Utility

variable {σ : Type} {h : Host σ} {e : Endian}

/-! ## What a request does to the table -/

theorem receiveAndWrite_dd (buffer : List Byte) (fd size : Word) (s : Client σ) :
    (receiveAndWrite h e buffer fd size s).2.dd = s.dd := by
  unfold receiveAndWrite
  dsimp only
  split
  · rfl
  · rfl

theorem readdirEntry_dd (tname name : List Byte) (s : Client σ) :
    (readdirEntry h e tname name s).2.dd = s.dd := by
  unfold readdirEntry
  split
  · rfl
  · dsimp only
    split <;> rfl

/-- Only `opendir` and `closedir` touch the table. -/
theorem perform_dd {op : Operation} (hopen : op.kind ≠ .opendir) (hclose : op.kind ≠ .closedir)
    (s : Client σ) : (op.perform h e s).2.dd = s.dd := by
  cases op with
  | «open» path flags =>
    simp only [Operation.perform, performOpen]
    split
    · rfl
    · split <;> rfl
  | close fd =>
    simp only [Operation.perform, performClose]
    split <;> rfl
  | read fd size =>
    simp only [Operation.perform, performRead]
    split
    · split <;> rfl
    · rfl
  | write fd size =>
    simp only [Operation.perform, performWrite]
    split
    · split
      · rfl
      · exact receiveAndWrite_dd ..
    · exact receiveAndWrite_dd ..
  | readdir dd =>
    simp only [Operation.perform, performReaddir]
    split
    · rfl
    · split
      · rfl
      · exact readdirEntry_dd ..
  | getstat path =>
    simp only [Operation.perform, performGetstat]
    split
    · rfl
    · split <;> rfl
  | opendir path => exact absurd rfl hopen
  | closedir dd => exact absurd rfl hclose
  | _ => rfl

/-- An `opendir` leaves the table alone, or puts the path and the directory into a free slot. -/
theorem performOpendir_dd (path : List Byte) (s : Client σ) :
    (performOpendir h e path s).2.dd = s.dd ∨
      ∃ i, freeSlot s.dd = some i ∧ (h.call (.stat path) s.host).1.any (fun st => isDir st.mode) ∧
        (performOpendir h e path s).2.dd = Function.update s.dd i ⟨some path,
          (h.call (.opendir path) (h.call (.malloc (path.length + 1))
            (h.call (.stat path) s.host).2).2).1⟩ := by
  unfold performOpendir
  dsimp only
  split
  · rename_i hdir
    split
    · rename_i i hfree
      unfold opendirAt
      dsimp only
      split
      · exact Or.inl rfl
      · refine Or.inr ⟨i, hfree, hdir, ?_⟩
        show Function.update (Function.update _ _ _) _ _ = _
        rw [Function.update_idem, Function.update_self]
    · exact Or.inl rfl
  · exact Or.inl rfl

theorem performClosedir_dd (dd : Word) (s : Client σ) :
    (performClosedir h e dd s).2.dd = s.dd ∨
      ∃ i, (performClosedir h e dd s).2.dd = Function.update s.dd i ⟨none, none⟩ := by
  unfold performClosedir
  split
  · exact Or.inl rfl
  · exact Or.inr ⟨_, rfl⟩

/-! ## What the table holds -/

/-- The path of a live directory is at most 255 bytes long. -/
def PathsFit (dd : Fin 10 → Slot) : Prop :=
  ∀ i, (dd i).dir ≠ none → ((dd i).pathname.getD []).length ≤ 255

theorem joinFits_of_pathsFit {s : Client σ} (hs : PathsFit s.dd) : JoinFits s := by
  intro i hlive name hname
  have hpath := hs i hlive
  simp only [List.length_append, List.length_cons, List.length_nil]
  omega

theorem PathsFit.update {dd : Fin 10 → Slot} (hdd : PathsFit dd) {i : Fin 10} {slot : Slot}
    (hslot : slot.dir ≠ none → (slot.pathname.getD []).length ≤ 255) :
    PathsFit (Function.update dd i slot) := by
  intro j hlive
  by_cases hji : j = i
  · rw [hji, Function.update_self] at hlive ⊢
    exact hslot hlive
  · rw [Function.update_of_ne hji] at hlive ⊢
    exact hdd j hlive

/-- A request that meets the condition keeps the paths short. -/
theorem perform_pathsFit {op : Operation} {s : Client σ} (hop : PathFits h op s)
    (hs : PathsFit s.dd) : PathsFit (op.perform h e s).2.dd := by
  by_cases hopen : op.kind = .opendir
  · cases op with
    | opendir path =>
      rcases performOpendir_dd (h := h) (e := e) path s with hdd | ⟨i, hfree, hdir, hdd⟩
      · rw [show ((Operation.opendir path).perform h e s).2.dd = s.dd from hdd]
        exact hs
      · rw [show ((Operation.opendir path).perform h e s).2.dd = _ from hdd]
        apply hs.update
        intro hlive
        exact hop hdir (by rw [hfree]; exact Option.some_ne_none i) hlive
    | _ => cases hopen
  · by_cases hclose : op.kind = .closedir
    · cases op with
      | closedir dd =>
        rcases performClosedir_dd (h := h) (e := e) dd s with hdd | ⟨i, hdd⟩
        · rw [show ((Operation.closedir dd).perform h e s).2.dd = s.dd from hdd]
          exact hs
        · rw [show ((Operation.closedir dd).perform h e s).2.dd = _ from hdd]
          exact hs.update fun hlive => absurd rfl hlive
      | _ => cases hclose
    · rw [perform_dd hopen hclose]
      exact hs

/-! ## Runs -/

theorem serveTurn_next {packet packet' : List Byte} {s s' : Client σ}
    (hturn : serveTurn h e packet s = .next packet' s') :
    s' = setActivity h (dispatch h e packet s).2.2 := by
  unfold serveTurn at hturn
  dsimp only at hturn
  split at hturn
  · cases hturn
  · cases hturn
    rfl

theorem turn_pathsFit {packet packet' payload rest : List Byte} {number : Word} {s s' : Client σ}
    (hlen : payload.length ≤ 512)
    (hin : s.sock.incoming =
      be32 number ++ (be16 (.ofNat 16 (6 + payload.length)) ++ (payload ++ rest)))
    (hP : ∀ k, Kind.ofNumber number = some k →
      PathFits h (k.decode e (inBuffer number payload packet)) s)
    (hturn : requestTurn h e packet s = .next packet' s') (hs : PathsFit s.dd) :
    PathsFit s'.dd := by
  obtain ⟨a, -, hserve⟩ := requestTurn_packet h e hlen hin
  rw [hserve] at hturn
  rw [serveTurn_next hturn]
  show PathsFit (dispatch h e (inBuffer number payload packet) (s.arrive a)).2.2.dd
  have hnumber := net32_inBuffer_number number payload packet
  cases hk : Kind.ofNumber number with
  | none =>
    rw [dispatch_unknown h e (s.arrive a) (by rw [hnumber, hk])]
    exact hs
  | some k =>
    rw [dispatch_operation h e (s.arrive a) (hnumber.trans (Kind.request_of_ofNumber hk))]
    exact perform_pathsFit (hP k hk) hs

/-- In every run in which each `opendir` that opens a directory has a path of at most 255 bytes, the
full name of every entry fits. -/
theorem join_fits {packet : List Byte} {s : Client σ}
    (hrun : ThreadRun h e (PathFits h) packet s) : JoinFits s := by
  apply joinFits_of_pathsFit
  induction hrun with
  | start packet host sock => exact fun _ hlive => absurd rfl hlive
  | turn hrun number payload rest hlen hin hP hturn ih => exact turn_pathsFit hlen hin hP hturn ih

/-! ## A path that is too long -/

/-- A request to open the directory with a name of `n` letters. -/
def longOpendir (n : Nat) : Request :=
  ⟨REQUEST_OPENDIR, be32 0 ++ (List.replicate n (ascii 'a') ++ [0]), []⟩

theorem longOpendir_length (n : Nat) : (longOpendir n).payload.length = n + 5 := by
  simp [longOpendir]
  omega

theorem hostPath_letters (n : Nat) :
    hostPath (List.replicate (n + 1) (ascii 'a')) = List.replicate (n + 1) (ascii 'a') := by
  rw [List.replicate_succ, hostPath_cons, if_neg fun hslash => absurd hslash.1 (by decide),
    List.map_replicate]
  rfl

theorem longOpendir_decode (n : Nat) (packet : List Byte) :
    (longOpendir (n + 1)).operation e .opendir packet =
      .opendir (List.replicate (n + 1) (ascii 'a')) := by
  have hdrop : (inBuffer REQUEST_OPENDIR (longOpendir (n + 1)).payload packet).drop 10 =
      List.replicate (n + 1) (ascii 'a') ++
        0 :: packet.drop (6 + (longOpendir (n + 1)).payload.length) := by
    unfold inBuffer longOpendir
    rw [← List.append_assoc, List.append_assoc (be32 0), ← List.append_assoc _ (be32 0),
      List.drop_left' (by simp), List.append_assoc, List.singleton_append]
  have hletters : (0 : Byte) ∉ List.replicate (n + 1) (ascii 'a') := by
    intro hmem
    exact absurd (List.eq_of_mem_replicate hmem) (by decide)
  show Operation.opendir (hostPath (cstr (List.drop 10 _))) = _
  rw [show (longOpendir (n + 1)).number = REQUEST_OPENDIR from rfl, hdrop, cstr_append_zero hletters,
    hostPath_letters]

/-- On a host where every path is a directory, the path is stored, however long it is. -/
theorem longOpendir_stored (n : Nat) (hn : n ≤ 506) :
    let s : Client Unit := .initial () (.receiving (longOpendir (n + 1)).bytes)
    ∃ packet' s', requestTurn (directoryHost (some 0)) .little [] s = .next packet' s' ∧
      s'.dd 0 = ⟨some (List.replicate (n + 1) (ascii 'a')), some 0⟩ := by
  intro s
  have hlen : (longOpendir (n + 1)).payload.length ≤ 512 := by
    rw [longOpendir_length]
    omega
  have hin : s.sock.incoming = be32 REQUEST_OPENDIR ++
      (be16 (.ofNat 16 (6 + (longOpendir (n + 1)).payload.length)) ++
        ((longOpendir (n + 1)).payload ++ [])) := incoming_receiving _
  obtain ⟨a, -, hturn⟩ := requestTurn_operation (directoryHost (some 0)) .little rfl hlen
    (longOpendir_decode n []) hin
  obtain ⟨packet', hnext⟩ := hturn rfl
  exact ⟨packet', _, hnext, rfl⟩

/-- An `opendir` of 300 letters that passes the length check, and an entry with a name of 255
bytes. -/
theorem not_join_fits :
    let s : Client Unit := .initial () (.receiving (longOpendir 300).bytes)
    ∃ packet' s', requestTurn (directoryHost (some 0)) .little [] s = .next packet' s' ∧
      ThreadRun (directoryHost (some 0)) .little (fun _ _ => True) packet' s' ∧ ¬ JoinFits s' := by
  intro s
  obtain ⟨packet', s', hturn, hslot⟩ := longOpendir_stored 299 (by decide)
  refine ⟨packet', s', hturn, ?_, ?_⟩
  · refine .turn (.start [] () (.receiving (longOpendir 300).bytes)) REQUEST_OPENDIR
      (longOpendir 300).payload [] ?_ (incoming_receiving _) (fun _ _ => trivial) hturn
    rw [longOpendir_length]
    decide
  · intro hfits
    have hbound := hfits 0 (by rw [hslot]; exact Option.some_ne_none 0)
      (List.replicate 255 (ascii 'b')) (Nat.le_of_eq List.length_replicate)
    rw [hslot, Option.getD_some, List.length_append, List.length_append, List.length_cons,
      List.length_replicate, List.length_replicate] at hbound
    exact absurd hbound (by decide)

/-- An `opendir` of one letter. -/
theorem join_fits_short :
    ∃ packet' s', requestTurn (directoryHost (some 0)) .little []
        (.initial () (.receiving (longOpendir 1).bytes)) = .next packet' s' ∧
      (s'.dd 0).dir ≠ none ∧ JoinFits s' := by
  obtain ⟨packet', s', hturn, hslot⟩ := longOpendir_stored 0 (by decide)
  refine ⟨packet', s', hturn, by rw [hslot]; exact Option.some_ne_none 0, ?_⟩
  have hrun : ThreadRun (directoryHost (some 0)) .little (PathFits (directoryHost (some 0)))
      packet' s' := by
    refine .turn (.start [] () (.receiving (longOpendir 1).bytes)) REQUEST_OPENDIR
      (longOpendir 1).payload [] (by decide) (incoming_receiving _) ?_ hturn
    intro k hk
    cases (show Kind.opendir = k from Option.some.inj hk)
    intro _ _ _
    decide
  exact join_fits hrun

end Ps2link

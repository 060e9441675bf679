import Ps2Client.Fsclient.Proofs.CopytoProofs
import Ps2Client.Fsclient.Proofs.TidyProofs
import Ps2Client.Posix.Proofs.ServiceProofs
import Ps2Client.Ps2netfs.Proofs.ServerProofs

/-!
# Proofs: copies to a server and back

The turns of the server follow the steps of a copy. What is known of the files of the server after
some of the steps holds whatever is said later on.
-/

namespace Fsclient

open CMemory Network Utility Ps2netfs Posix
open Ps2link (Host HostCall PosixHost HostFiles fileHost fileHost_posix)

variable {σ : Type} {e : Endian} {h : Host σ} {w₀ w w' : World σ} {fs₀ fs fs' : ServerFiles}
  {P Q : ServerFiles → Prop}

/-! ## What the server has done so far -/

/-- If the server takes what was sent so far, its files are as `P` says then. -/
def Reached (w₀ : World σ) (fs₀ : ServerFiles) (P : ServerFiles → Prop) (w : World σ) : Prop :=
  ∃ requests answers, w.sock.sent = w₀.sock.sent ++ requests ∧
    w₀.sock.incoming = answers ++ w.sock.incoming ∧
    ∀ requests' answers' fs', Conversation (requests ++ requests') (answers ++ answers') fs₀ fs' →
      ∃ fs, P fs ∧ Conversation requests' answers' fs fs'

theorem Reached.start (hP : P fs₀) : Reached w₀ fs₀ P w₀ :=
  ⟨[], [], (List.append_nil _).symm, rfl, fun _ _ _ hconversation => ⟨fs₀, hP, hconversation⟩⟩

/-- Nothing the host does is seen by the server. -/
theorem Reached.host (hreached : Reached w₀ fs₀ P w) (hsock : w'.sock = w.sock) :
    Reached w₀ fs₀ P w' := by
  unfold Reached at hreached ⊢
  rw [hsock]
  exact hreached

/-- A command that does not fail is a turn of the server. -/
theorem Reached.command {c : Command} {r : Ps2netfs.Received} (hreached : Reached w₀ fs₀ P w)
    (hok : 0 ≤ (command e h c w).1) (hfits : ¬ c.Refused → c.Fits) (hnumber : c.misnumbered = false)
    (hmeant : c.meant = some r)
    (hturn : ∀ fs fs' a, P fs → c.told a = ((command e h c w).1, (command e h c w).2.1) →
      Turn r a fs fs' → Q fs') :
    Reached w₀ fs₀ Q (command e h c w).2.2 := by
  obtain ⟨requests, answers, hsent, hincoming, hlater⟩ := hreached
  obtain ⟨hrefused, ⟨a, hanswer, htold, hheard⟩, hpacket⟩ := call_answered hok
  refine ⟨requests ++ (c.packet e (h.uninit (6 + sizeof c.fields) w.host).1 ++ c.data),
    answers ++ a.bytes, ?_, ?_, ?_⟩
  · rw [← List.append_assoc, ← hsent]
    exact hpacket
  · rw [hincoming, hheard, List.append_assoc]
    rfl
  · intro requests' answers' fs' hconversation
    rw [List.append_assoc, List.append_assoc, List.append_assoc] at hconversation
    obtain ⟨fs, hP, hrest⟩ := hlater _ _ fs' hconversation
    obtain ⟨fs₁, hserver, hrest⟩ := hrest.turn_of (hfits hrefused) hnumber hmeant hanswer
    exact ⟨fs₁, hturn fs fs₁ a hP htold hserver, hrest⟩

/-- At the end of a conversation. -/
theorem Reached.served (hreached : Reached w₀ fs₀ P w) (hserved : Served w₀ w fs₀ fs') : P fs' := by
  obtain ⟨requests, answers, hsent, hincoming, hlater⟩ := hreached
  obtain ⟨requests', answers', hsent', hincoming', hconversation⟩ := hserved
  rw [hsent] at hsent'
  rw [hincoming] at hincoming'
  obtain rfl := List.append_cancel_left hsent'
  obtain rfl := List.append_cancel_right hincoming'
  obtain ⟨fs, hP, hrest⟩ := hlater [] [] fs' (by rwa [List.append_nil, List.append_nil])
  generalize hnil : ([] : List Byte) = requests' at hrest
  cases hrest with
  | quiet => exact hP
  | turn hrequest =>
    rw [← hnil] at hrequest
    cases hrequest

/-! ## A copy to the server -/

/-- The descriptor `fd` is at the end of the file at `path`, which holds `data`, and no other file is
any different. -/
def Uploading (fs₀ : ServerFiles) (path : CStr) (fd : Int) (data : List Byte) (fs : ServerFiles) :
    Prop :=
  ∃ i, Filled fs path.bytes fd i data ∧ ∀ k, k ≠ i → fs.content k = fs₀.content k

variable (e) {source destination : CStr} {view : σ → HostFiles}

theorem openDestination_uploading
    (hok : 0 ≤ ((copytoEnds e h source destination).openDestination w).1)
    (hreached : Reached w₀ fs₀ (· = fs₀) w) :
    Reached w₀ fs₀
      (Uploading fs₀ destination ((copytoEnds e h source destination).openDestination w).1 [])
      ((copytoEnds e h source destination).openDestination w).2 := by
  refine hreached.command hok open_fits rfl rfl ?_
  rintro fs fs' a rfl htold hturn
  have hresult : a.result = ((copytoEnds e h source destination).openDestination w).1 :=
    congrArg Prod.fst htold
  rw [← hresult] at hok ⊢
  cases hturn with
  | refused _ _ hfailed => exact absurd hok (Int.not_le.mpr hfailed)
  | served hop hserves htells =>
    cases hop
    cases hserves with
    | notOpened =>
      have hfailed : a.result = -1 := htells
      omega
    | opened _ _ _ fd hpath =>
      rename_i i
      have hfd : a.result = fd := htells
      rw [hfd]
      refine ⟨i, ⟨hpath, ?_, _, open_opened .., rfl, rfl⟩, fun k hk => ?_⟩
      · exact open_content ..
      · exact Function.update_of_ne hk ..
  | created i fd hcreate hpath hnew hfd =>
    rw [hfd]
    refine ⟨i, ⟨Function.update_self .., Function.update_self .., ?_⟩, fun k hk => ?_⟩
    · exact ⟨_, Function.update_self .., rfl, rfl⟩
    · exact Function.update_of_ne hk ..
  | other hop => cases hop

/-- A write leaves the other files. -/
theorem Uploading.write {path : CStr} {fd : Int} {data more : List Byte}
    (huploading : Uploading fs₀ path fd data fs) :
    Uploading fs₀ path fd (data ++ more) (fs.write fd more) := by
  obtain ⟨i, hfilled, hothers⟩ := huploading
  refine ⟨i, hfilled.write, fun k hk => ?_⟩
  obtain ⟨f, hopened, rfl, -⟩ := hfilled.opened
  rw [write_frame more hopened (Ne.symm hk)]
  exact hothers k hk

/-- Of the data of a `write` the server takes the first bytes. -/
theorem take_sent {data : List Byte} {n : Nat}
    (hn : n ≤ (peek data 0 (BitVec.ofNat 32 data.length).toInt.toNat).length) :
    (peek data 0 (BitVec.ofNat 32 data.length).toInt.toNat).take n = data.take n := by
  have hle : (BitVec.ofNat 32 data.length).toInt.toNat ≤ data.length := by
    have hint : (BitVec.ofNat 32 data.length).toInt ≤ data.length := by
      rw [← BitVec.ofInt_natCast]
      exact toInt32_le (Int.natCast_nonneg _)
    omega
  rw [peek_length] at hn
  rw [peek_eq_take_drop (by omega), List.drop_zero, List.take_take, Nat.min_eq_left hn]

theorem uploading_keptByWrites {fd : Int} (hfd : toInt32 fd = fd) :
    KeptByWrites (copytoEnds e h source destination) fd fun w steps => (∀ s ∈ steps, ¬ s.Failed) →
      Reached w₀ fs₀ (Uploading fs₀ destination fd (accepted steps)) w := by
  intro data w steps hkept hgood
  obtain ⟨hbefore, hlast⟩ := List.forall_mem_append.mp hgood
  have hwrite := hlast _ (List.mem_singleton_self _)
  set result := ((copytoEnds e h source destination).write fd data w).1 with hresult
  have hpos : 0 < result := Int.not_le.mp fun hneg => hwrite (.inl hneg)
  rw [accepted_append, accepted_write]
  refine (hkept hbefore).command (h := h) (e := e) (Int.le_of_lt hpos) (fun _ => nofun) rfl rfl ?_
  intro fs fs' a huploading htold hturn
  have hanswer : a.result = result := congrArg Prod.fst htold
  obtain ⟨reply, hserves, htells⟩ := hturn.serves (by omega) rfl (by intro _ _ hopen; cases hopen)
  cases hserves with
  | notWritten =>
    have hfailed : a.result = -1 := htells
    omega
  | written n hopened hn =>
    have hn' : a.result = n := htells
    have htaken : result.toNat = n := by omega
    rw [show (BitVec.ofInt 32 fd).toInt = fd from hfd, htaken, ← take_sent hn]
    exact huploading.write

/-- The reads of the local file are not seen by the server. -/
theorem uploading_keptByReads (fd fd' : Int) :
    KeptByReads (copytoEnds e h source destination) fd' fun w steps => (∀ s ∈ steps, ¬ s.Failed) →
      Reached w₀ fs₀ (Uploading fs₀ destination fd (accepted steps)) w := by
  intro count w steps _ _ hkept hgood
  obtain ⟨hbefore, -⟩ := List.forall_mem_append.mp hgood
  rw [accepted_append, accepted_read, List.append_nil]
  exact (hkept hbefore).host (hostRead_sock h fd' count w)

/-- After a close the files are what they were. -/
theorem Uploading.close {path : CStr} {fd : Int} {data : List Byte} (fd' : Int)
    (huploading : Uploading fs₀ path fd data fs) :
    Holds (fs.close fd') path data ∧ OnlyChanged path fs₀ (fs.close fd') := by
  obtain ⟨i, hfilled, hothers⟩ := huploading
  refine ⟨⟨i, hfilled.lookup, hfilled.content⟩, fun k hk => hothers k ?_⟩
  rintro rfl
  exact hk hfilled.lookup

/-- When `fsclient_copyto` returns 0, the file on the server holds what was written to it, and no
other file has changed. -/
theorem copyto_uploads (hh : Bounded h) {w : World σ}
    (hstatus : (copyto e h source destination w).1 = 0)
    (hserved : Served w (copyto e h source destination w).2.world fs fs') :
    Holds fs' destination (accepted (copyto e h source destination w).2.steps) ∧
      OnlyChanged destination fs fs' := by
  have hE := copytoEnds_sound e source destination hh
  obtain ⟨hopen, -, -, hdest, -⟩ := copy_success hE source destination w hstatus
  obtain ⟨hworld, hsteps, hgood, hkept⟩ := copy_kept hE source destination w hstatus
  set E := copytoEnds e h source destination
  set f := E.openSource w
  set n := E.seekEnd f.1 f.2
  set z := E.seekSet f.1 n.2
  set g := E.openDestination z.2
  set w' := (copyBody E source destination ⟨w, [], []⟩).2.world
  set steps := (copyBody E source destination ⟨w, [], []⟩).2.steps
  have hfd : toInt32 g.1 = g.1 := call_int e _ _ _
  have hstart : Reached w fs (· = fs) z.2 := Reached.host (Reached.start (P := (· = fs)) rfl) rfl
  have hreached := hkept (fun w' steps => (∀ s ∈ steps, ¬ s.Failed) →
      Reached w fs (Uploading fs destination g.1 (accepted steps)) w')
    (uploading_keptByReads e _ _) (uploading_keptByWrites e hfd)
    (fun _ => openDestination_uploading e hdest hstart)
  rw [hsteps] at hgood
  rw [show (copyto e h source destination w).2.steps = _ from hsteps]
  obtain ⟨hbefore, hlast⟩ := List.forall_mem_append.mp hgood
  have hclose := Int.not_lt.mp (hlast _ (List.mem_cons_of_mem _ (List.mem_singleton_self _)))
  have hclosed : Reached w fs
      (fun fs' => Holds fs' destination (accepted steps) ∧ OnlyChanged destination fs fs')
      (copyto e h source destination w).2.world := by
    rw [show (copyto e h source destination w).2.world = _ from hworld]
    have hlocal := (hreached hbefore).host
      (show (E.closeSource f.1 w').2.sock = w'.sock from rfl)
    refine hlocal.command hclose (fun _ => nofun) rfl rfl ?_
    intro fs₁ fs₂ a huploading htold hturn
    have hanswer : a.result = _ := congrArg Prod.fst htold
    obtain ⟨reply, hserves, -⟩ := hturn.serves (by rw [hanswer]; exact hclose) rfl
      (by intro _ _ hopen; cases hopen)
    rw [hserves.closed_at]
    exact huploading.close _
  have hnone : accepted (steps ++ [.closeSource f.1 (E.closeSource f.1 w').1,
      .closeDestination g.1 (E.closeDestination g.1 (E.closeSource f.1 w').2).1]) =
      accepted steps := by
    rw [accepted_append]
    exact List.append_nil _
  rw [hnone]
  exact hclosed.served hserved

/-! ## A copy from the server -/

/-- The file `i` is read through the descriptor `fd`, and no file is any different. -/
structure Downloading (fs₀ : ServerFiles) (i : Nat) (fd : Int) (position : Nat) (fs : ServerFiles) :
    Prop where
  lookup : fs.lookup = fs₀.lookup
  content : fs.content = fs₀.content
  opened : ∃ f, fs.opened fd = some f ∧ f.inode = i ∧ f.position = position

theorem openSource_downloading {i : Nat} (hpath : fs₀.lookup source.bytes = some i)
    (hok : 0 ≤ ((copyfromEnds e h source destination).openSource w).1) :
    Reached w fs₀ (Downloading fs₀ i ((copyfromEnds e h source destination).openSource w).1 0)
      ((copyfromEnds e h source destination).openSource w).2 := by
  refine (Reached.start (P := (· = fs₀)) rfl).command hok open_fits rfl rfl ?_
  rintro fs fs' a rfl htold hturn
  have hresult : a.result = ((copyfromEnds e h source destination).openSource w).1 :=
    congrArg Prod.fst htold
  rw [← hresult] at hok ⊢
  cases hturn with
  | refused _ _ hfailed => exact absurd hok (Int.not_le.mpr hfailed)
  | served hop hserves htells =>
    cases hop
    cases hserves with
    | notOpened =>
      have hfailed : a.result = -1 := htells
      omega
    | opened _ _ _ fd hpath' =>
      have hfd : a.result = fd := htells
      have hsame := hpath'.symm.trans hpath
      cases hsame
      rw [hfd]
      exact ⟨rfl, rfl, _, open_opened .., rfl, rfl⟩
  | created i fd hcreate => exact absurd hcreate (by decide)
  | other hop => cases hop

/-- What the server makes of an `lseek` of an open file. -/
theorem Downloading.lseek {i : Nat} {fd whence : Int} {position base : Nat} (offset : Int)
    (hdownloading : Downloading fs₀ i fd position fs)
    (hbase : ∀ f, fs.opened fd = some f → f.inode = i → fs.base f whence = some base)
    (hrange : ¬ (base + offset < 0 ∨ OFF_MAX < base + offset)) :
    (fs.lseek fd offset whence).1 = base + offset ∧
      Downloading fs₀ i fd (base + offset).toNat (fs.lseek fd offset whence).2 := by
  obtain ⟨f, hopened, hinode, -⟩ := hdownloading.opened
  rw [lseek_eq hopened (hbase f hopened hinode), if_neg hrange]
  exact ⟨rfl, hdownloading.lookup, hdownloading.content, _, moveTo_opened .., hinode, rfl⟩

/-- The two calls of `lseek` find the length of the file, and go back to its start. -/
theorem seeks_downloading {i : Nat} {fd : Int} (hfd : toInt32 fd = fd)
    (hlength : (fs₀.content i).length < 2 ^ 31)
    (hreached : Reached w₀ fs₀ (Downloading fs₀ i fd 0) w)
    (hend : 0 ≤ ((copyfromEnds e h source destination).seekEnd fd w).1)
    (hset : 0 ≤ ((copyfromEnds e h source destination).seekSet fd
      ((copyfromEnds e h source destination).seekEnd fd w).2).1) :
    Reached w₀ fs₀ (fun fs => ((copyfromEnds e h source destination).seekEnd fd w).1 =
        (fs₀.content i).length ∧ Downloading fs₀ i fd 0 fs)
      ((copyfromEnds e h source destination).seekSet fd
        ((copyfromEnds e h source destination).seekEnd fd w).2).2 := by
  have hmax : ¬ (((fs₀.content i).length : Int) + 0 < 0 ∨
      OFF_MAX < ((fs₀.content i).length : Int) + 0) := by
    unfold OFF_MAX
    omega
  have hfd' : (BitVec.ofInt 32 fd).toInt = fd := hfd
  have hlast : Reached w₀ fs₀ (fun fs => ((copyfromEnds e h source destination).seekEnd fd w).1 =
      (fs₀.content i).length ∧ Downloading fs₀ i fd (fs₀.content i).length fs)
      ((copyfromEnds e h source destination).seekEnd fd w).2 := by
    refine hreached.command hend (fun _ => nofun) rfl rfl ?_
    intro fs fs' a hdownloading htold hturn
    have hresult : a.result = ((copyfromEnds e h source destination).seekEnd fd w).1 :=
      congrArg Prod.fst htold
    obtain ⟨reply, hserves, htells⟩ := hturn.serves (by rw [hresult]; exact hend) rfl
      (by intro _ _ hopen; cases hopen)
    cases hserves with
    | sought =>
      have hbase : ∀ f, fs.opened fd = some f → f.inode = i →
          fs.base f (LSEEK_END).toInt = some (fs₀.content i).length := by
        rintro f - rfl
        rw [← hdownloading.content]
        rfl
      obtain ⟨hposition, hnext⟩ := hdownloading.lseek 0 hbase hmax
      have htells : a.result =
          toInt32 (fs.lseek (BitVec.ofInt 32 fd).toInt 0 (LSEEK_END).toInt).1 := htells
      rw [hfd', hposition, Int.add_zero, toInt32_of_fits (by omega) (by omega)] at htells
      rw [hfd', ← hresult]
      exact ⟨htells, hnext⟩
  refine hlast.command hset (fun _ => nofun) rfl rfl ?_
  rintro fs fs' a ⟨hsize, hdownloading⟩ htold hturn
  have hresult : a.result = _ := congrArg Prod.fst htold
  obtain ⟨reply, hserves, -⟩ := hturn.serves (by rw [hresult]; exact hset) rfl
    (by intro _ _ hopen; cases hopen)
  cases hserves with
  | sought =>
    rw [hfd']
    have hbase : ∀ f, fs.opened fd = some f → f.inode = i → fs.base f (LSEEK_SET).toInt = some 0 :=
      fun _ _ _ => rfl
    exact ⟨hsize, (hdownloading.lseek 0 hbase (by decide)).2⟩

/-- `size` is the length of the file `i`, and `data` the part of it that was read. -/
def ReadAlong (fs₀ : ServerFiles) (i : Nat) (fd size : Int) (data : List Byte) (fs : ServerFiles) :
    Prop :=
  size = (fs₀.content i).length ∧ Downloading fs₀ i fd data.length fs ∧
    (fs₀.content i).take data.length = data

theorem readAlong_keptByReads {i : Nat} {fd size : Int} (hfd : toInt32 fd = fd) :
    KeptByReads (copyfromEnds e h source destination) fd fun w steps => (∀ s ∈ steps, ¬ s.Failed) →
      Reached w₀ fs₀ (ReadAlong fs₀ i fd size (received steps)) w := by
  intro count w steps _ _ hkept hgood
  obtain ⟨hbefore, hlast⟩ := List.forall_mem_append.mp hgood
  have hread := hlast _ (List.mem_singleton_self _)
  have hpos : 0 < ((copyfromEnds e h source destination).read fd count w).1 :=
    Int.not_le.mp fun hneg => hread (.inl hneg)
  refine (hkept hbefore).command (Int.le_of_lt hpos) (fun _ => nofun) rfl rfl ?_
  rintro fs fs' a ⟨hsize, hdownloading, hfirst⟩ htold hturn
  have hresult : a.result = _ := congrArg Prod.fst htold
  have hdata : a.data = ((copyfromEnds e h source destination).read fd count w).2.1 :=
    congrArg Prod.snd htold
  obtain ⟨reply, hserves, htells⟩ := hturn.serves (by rw [hresult]; exact Int.le_of_lt hpos) rfl
    (by intro _ _ hopen; cases hopen)
  cases hserves with
  | read n hopened hreadable hn hend =>
    rw [show (BitVec.ofInt 32 fd).toInt = fd from hfd] at htells ⊢
    obtain ⟨f, hopened', hinode, hposition⟩ := hdownloading.opened
    rw [read_eq hopened', hinode, hposition, hdownloading.content] at htells ⊢
    have hgot : ((copyfromEnds e h source destination).read fd count w).2.1 = _ :=
      hdata.symm.trans htells.2
    rw [hgot, received_append, received_read, ReadAlong, List.length_append]
    refine ⟨hsize, ⟨hdownloading.lookup, hdownloading.content, _, moveTo_opened .., hinode, rfl⟩, ?_⟩
    rw [List.take_add, hfirst]
    congr 1
    rw [List.length_take, List.take_eq_take_iff]
    omega

/-- The writes of the local file are not seen by the server. -/
theorem readAlong_keptByWrites (i : Nat) (fd fd' size : Int) :
    KeptByWrites (copyfromEnds e h source destination) fd' fun w steps => (∀ s ∈ steps, ¬ s.Failed) →
      Reached w₀ fs₀ (ReadAlong fs₀ i fd size (received steps)) w := by
  intro data w steps hkept hgood
  obtain ⟨hbefore, -⟩ := List.forall_mem_append.mp hgood
  rw [received_append, received_write, List.append_nil]
  exact (hkept hbefore).host rfl

/-- When `fsclient_copyfrom` returns 0, it has read all of the file on the server, and the server has
the files it had. -/
theorem copyfrom_downloads (hh : Bounded h) {w : World σ} {file : List Byte}
    (hstatus : (copyfrom e h source destination w).1 = 0) (hsource : Holds fs source file)
    (hlength : file.length < 2 ^ 31)
    (hserved : Served w (copyfrom e h source destination w).2.world fs fs') :
    received (copyfrom e h source destination w).2.steps = file ∧ fs'.lookup = fs.lookup ∧
      fs'.content = fs.content := by
  have hE := copyfromEnds_sound e source destination hh
  obtain ⟨i, hpath, rfl⟩ := hsource
  obtain ⟨hopen, hsize, hset, -, -, hall, -⟩ := copy_success hE source destination w hstatus
  obtain ⟨hworld, hsteps, hgood, hkept⟩ := copy_kept hE source destination w hstatus
  rw [copyfromEnds_seekEnd] at hsize hall
  set E := copyfromEnds e h source destination
  set f := E.openSource w
  set n := E.seekEnd f.1 f.2
  set z := E.seekSet f.1 n.2
  set g := E.openDestination z.2
  set w' := (copyBody E source destination ⟨w, [], []⟩).2.world
  set steps := (copyBody E source destination ⟨w, [], []⟩).2.steps
  have hfd : toInt32 f.1 = f.1 := call_int e _ _ _
  have hstart := seeks_downloading e (w := f.2) hfd hlength
    (openSource_downloading e hpath hopen) hsize hset
  have hreached := hkept (fun w' steps => (∀ s ∈ steps, ¬ s.Failed) →
      Reached w fs (ReadAlong fs i f.1 n.1 (received steps)) w')
    (readAlong_keptByReads e hfd) (readAlong_keptByWrites e _ _ _ _) (fun _ => by
      obtain ⟨requests, answers, hsent, hincoming, hlater⟩ := hstart
      refine ⟨requests, answers, hsent, hincoming, fun requests' answers' fs' hconversation => ?_⟩
      obtain ⟨fs₁, ⟨hlast, hdownloading⟩, hrest⟩ := hlater requests' answers' fs' hconversation
      exact ⟨fs₁, ⟨hlast, hdownloading, rfl⟩, hrest⟩)
  rw [hsteps] at hgood
  obtain ⟨hbefore, hlast⟩ := List.forall_mem_append.mp hgood
  have hclose := Int.not_lt.mp (hlast _ List.mem_cons_self)
  have hnone : received (copyfrom e h source destination w).2.steps = received steps := by
    rw [show (copyfrom e h source destination w).2.steps = _ from hsteps, received_append]
    exact List.append_nil _
  have hclosed : Reached w fs (fun fs' => received steps = fs.content i ∧ fs'.lookup = fs.lookup ∧
      fs'.content = fs.content) (copyfrom e h source destination w).2.world := by
    rw [show (copyfrom e h source destination w).2.world = _ from hworld]
    refine Reached.host (w := (E.closeSource f.1 w').2) ?_ rfl
    refine (hreached hbefore).command hclose (fun _ => nofun) rfl rfl ?_
    rintro fs₁ fs₂ a ⟨hfile, hdownloading, hfirst⟩ htold hturn
    have hresult : a.result = _ := congrArg Prod.fst htold
    obtain ⟨reply, hserves, -⟩ := hturn.serves (by rw [hresult]; exact hclose) rfl
      (by intro _ _ hopen; cases hopen)
    rw [hserves.closed_at]
    have hwhole : (received steps).length = (fs.content i).length := by
      rw [← hnone]
      refine Eq.trans hall ?_
      rw [hfile, Int.toNat_natCast]
    rw [hwhole, List.take_length] at hfirst
    exact ⟨hfirst.symm, hdownloading.lookup, hdownloading.content⟩
  rw [hnone]
  exact hclosed.served hserved

/-! ## There and back -/

/-- What `fsclient_copyto` puts on a server and `fsclient_copyfrom` gets back later, on the same
machine or another, is the same file, provided that both return 0 and nobody else changes it on the
server. The one changes no other file there, the other none at all. -/
theorem copied_there_and_back {σ' : Type} (e' : Endian) {h' : Host σ'} {view' : σ' → HostFiles}
    {remote : CStr} {content : List Byte} {w : World σ} {w' : World σ'} {fs₁ fs₂ fs₃ : ServerFiles}
    (hh : Bounded h) (hp : PosixHost h view) (hh' : Bounded h') (hp' : PosixHost h' view')
    (hc' : CreatesFile h' view' destination.bytes) (hsource : Holds (view w.host) source content)
    (hlength : content.length < 2 ^ 31) (hto : (copyto e h source remote w).1 = 0)
    (hserved : Served w (copyto e h source remote w).2.world fs fs₁)
    (hkept : ∀ data, Holds fs₁ remote data → Holds fs₂ remote data)
    (hfrom : (copyfrom e' h' remote destination w').1 = 0)
    (hserved' : Served w' (copyfrom e' h' remote destination w').2.world fs₂ fs₃) :
    Holds (view' (copyfrom e' h' remote destination w').2.world.host) destination content ∧
      OnlyChanged remote fs fs₁ ∧ fs₃.lookup = fs₂.lookup ∧ fs₃.content = fs₂.content := by
  obtain ⟨i, hpath, rfl⟩ := hsource
  obtain ⟨-, -, hall, -⟩ := copyto_success e source remote hh hp hpath hto
  rw [toInt32_of_fits (by omega) (by omega), Int.toNat_natCast, List.take_length] at hall
  obtain ⟨hthere, hothers⟩ := copyto_uploads e hh hto hserved
  rw [hall] at hthere
  obtain ⟨hback, hlookup, hcontent⟩ :=
    copyfrom_downloads e' hh' hfrom (hkept _ hthere) hlength hserved'
  obtain ⟨-, j, hlocal, hread⟩ := copyfrom_success e' remote destination hh' hp' hc' w' hfrom
  exact ⟨⟨j, hlocal, hread.trans hback⟩, hothers, hlookup, hcontent⟩

/-- A file of one byte, on the two machines and the server. -/
theorem copied_there_and_back_byte :
    Holds (copyfrom .little fileHost pathX pathX downloadWorld).2.world.host pathX [7] ∧
      OnlyChanged pathX (filesOf []) uploaded := by
  obtain ⟨hto, hserved⟩ := copyto_byte
  obtain ⟨hfrom, -, fs₃, hserved'⟩ := copyfrom_byte
  obtain ⟨hback, honly, -⟩ := copied_there_and_back .little .little
    fileHost_bounded fileHost_posix fileHost_bounded fileHost_posix (fileHost_creates _)
    ⟨0, rfl, rfl⟩ (by decide) hto hserved (fun _ hholds => hholds) hfrom hserved'
  exact ⟨hback, honly⟩

end Fsclient

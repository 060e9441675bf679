import Ps2Client.Fsclient.Proofs.CompleteProofs

/-!
# Proofs: `fsclient_copyto`
-/

namespace Fsclient

open CMemory History Network Utility Ps2netfs Posix
open Ps2link (Host HostCall PosixHost HostFiles fileHost fileHost_posix)

section Copyto

variable {σ : Type} (e : Endian) {h : Host σ} {view : σ → HostFiles} (source destination : CStr)

/-! ## A source that is read -/

/-- `data` has been read of the file `i`, which holds `content`, through the descriptor `fd`. -/
structure ReadSoFar (fs : HostFiles) (fd : Int) (i : Nat) (content data : List Byte) : Prop where
  holds : fs.content i = content
  opened : ∃ f, fs.opened fd = some f ∧ f.inode = i ∧ f.readable = true ∧ f.position = data.length
  first : content.take data.length = data

theorem ReadSoFar.read {fs : HostFiles} {fd : Int} {i : Nat} {content data : List Byte}
    (hs : ReadSoFar fs fd i content data) (k : Nat) :
    ReadSoFar (fs.read fd k).2 fd i content (data ++ (fs.read fd k).1) := by
  obtain ⟨f, hopened, rfl, hreadable, hposition⟩ := hs.opened
  rw [read_eq hopened, hs.holds, hposition]
  refine ⟨hs.holds, ⟨_, moveTo_opened .., rfl, hreadable, List.length_append.symm⟩, ?_⟩
  rw [List.length_append, List.take_add, hs.first]
  congr 1
  rw [List.length_take, List.take_eq_take_iff]
  omega

/-- What `lseek` to one of the two ends of the source does. -/
theorem lseek_source (hp : PosixHost h view) {fd : Int} {i : Nat} {content data : List Byte}
    {st : σ} (hs : ReadSoFar (view st) fd i content data) :
    (OFF_MAX < content.length → (h.call (.lseek fd 0 2) st).1 = (-1 : Int)) ∧
      (¬ OFF_MAX < content.length → (h.call (.lseek fd 0 2) st).1 = (content.length : Int)) ∧
      (h.call (.lseek fd 0 0) (h.call (.lseek fd 0 2) st).2).1 = (0 : Int) ∧
      ReadSoFar (view (h.call (.lseek fd 0 0) (h.call (.lseek fd 0 2) st).2).2) fd i content [] := by
  obtain ⟨f, hopened, rfl, hreadable, -⟩ := hs.opened
  obtain ⟨hresult, hview⟩ := hp.lseek 0 2 hopened
  have hend : (view st).base f 2 = some content.length := by
    rw [← hs.holds]
    rfl
  rw [lseek_eq hopened hend] at hresult hview
  have hopened' : ∃ f', (view (h.call (.lseek fd 0 2) st).2).opened fd = some f' ∧
      f'.inode = f.inode ∧ f'.readable = true ∧
      (view (h.call (.lseek fd 0 2) st).2).content f.inode = content := by
    rw [hview]
    split_ifs
    · exact ⟨f, hopened, rfl, hreadable, hs.holds⟩
    · exact ⟨_, moveTo_opened .., rfl, hreadable, hs.holds⟩
  refine ⟨?_, ?_, ?_⟩
  · intro hlong
    rw [hresult, if_pos (Or.inr (by omega))]
  · intro hshort
    rw [hresult, if_neg (by omega)]
    exact Int.add_zero _
  · obtain ⟨f', hopened', hinode, hreadable', hcontent⟩ := hopened'
    obtain ⟨hresult', hview'⟩ := hp.lseek 0 0 hopened'
    rw [hresult', hview', lseek_eq hopened' (show _ = some 0 from rfl), if_neg (by decide)]
    exact ⟨rfl, hcontent, ⟨_, moveTo_opened .., hinode, hreadable', rfl⟩, rfl⟩

theorem openSource_read (hp : PosixHost h view) {w : World σ} {i : Nat}
    (hpath : (view w.host).lookup source.bytes = some i)
    (hfd : 0 ≤ ((copytoEnds e h source destination).openSource w).1) :
    ReadSoFar (view ((copytoEnds e h source destination).openSource w).2.host)
      ((copytoEnds e h source destination).openSource w).1 i ((view w.host).content i) [] := by
  set r := (copytoEnds e h source destination).openSource w
  have hflags : O_RDONLY &&& O_TRUNC = 0 ∨ O_RDONLY &&& Ps2link.O_ACCMODE ≠ O_RDONLY := by decide
  obtain hfail | ⟨fd, -, hresult, hopen⟩ := hp.open 0 hpath hflags
  · have hfail : r.1 = -1 := hfail
    omega
  · have hresult : r.1 = fd := hresult
    rw [hresult, show view r.2.host = _ from hopen]
    refine ⟨?_, ⟨_, open_opened .., rfl, rfl, rfl⟩, rfl⟩
    exact (open_content ..).trans (if_neg (by decide))

theorem read_keptByReads (hp : PosixHost h view) (fd : Int) (i : Nat)
    (content : List Byte) :
    KeptByReads (copytoEnds e h source destination) fd
      (fun w steps => ReadSoFar (view w.host) fd i content (received steps)) := by
  intro count w steps _ _ hs
  obtain ⟨f, hopened, -, hreadable, -⟩ := hs.opened
  obtain ⟨k, -, -, hdata, hview⟩ := hp.read count.toNat hopened hreadable
  have hread : (copytoEnds e h source destination).read fd count w =
      ((((view w.host).read fd k).1.length : Int), ((view w.host).read fd k).1,
        ⟨(h.call (.read fd count.toNat) w.host).2, w.sock⟩) := by
    show hostRead h fd count w = _
    unfold hostRead hostCall
    dsimp only
    rw [hdata]
  rw [hread, received_append, received_read]
  dsimp only
  rw [hview]
  exact hs.read k

theorem read_keptByWrites (hp : PosixHost h view) (fd fd' : Int) (i : Nat) (content : List Byte) :
    KeptByWrites (copytoEnds e h source destination) fd'
      (fun w steps => ReadSoFar (view w.host) fd i content (received steps)) := by
  intro data w steps hs
  have hview : view ((copytoEnds e h source destination).write fd' data w).2.host = view w.host :=
    command_view e hp _ w
  rw [hview, received_append, received_write, List.append_nil]
  exact hs

/-- When `fsclient_copyto` returns 0, the server took as many of the first bytes of the source as its
length is as an `int`, and that number is printed. -/
theorem copyto_success (hh : Bounded h) (hp : PosixHost h view) {w : World σ} {i : Nat}
    (hpath : (view w.host).lookup source.bytes = some i)
    (hstatus : (copyto e h source destination w).1 = 0) :
    let content := (view w.host).content i
    let r := (copyto e h source destination w).2
    ¬ OFF_MAX < content.length ∧ 0 ≤ toInt32 content.length ∧
      accepted r.steps = content.take (toInt32 content.length).toNat ∧
      (accepted r.steps).length = (toInt32 content.length).toNat ∧
      r.out.getLast? = some ⟨"\n\n [%d Bytes Copied]\n\n", [.int (toInt32 content.length)]⟩ := by
  have hE := copytoEnds_sound e source destination hh
  intro content r
  obtain ⟨hopen, hsize, -, -, hacc, hlen, -, hout, hkeeps⟩ :=
    copy_success hE source destination w hstatus
  have hstart := openSource_read e source destination hp hpath hopen
  obtain ⟨hlong, hshort, -, hset⟩ := lseek_source hp hstart
  set f := (copytoEnds e h source destination).openSource w
  set n := (copytoEnds e h source destination).seekEnd f.1 f.2 with hn
  set z := (copytoEnds e h source destination).seekSet f.1 n.2 with hz
  have hoff : ¬ OFF_MAX < (content.length : Int) := by
    intro hoff
    have hfail : n.1 = -1 := hlong hoff
    rw [hfail] at hsize
    exact absurd hsize (by decide)
  have hlength : n.1 = content.length := hshort hoff
  rw [hlength] at hsize hlen hout
  have hdest : view ((copytoEnds e h source destination).openDestination z.2).2.host =
      view z.2.host := command_view e hp _ z.2
  obtain ⟨w', steps, hend, hreceived, -, -⟩ := hkeeps _
    (read_keptByReads e source destination hp _ i content)
    (read_keptByWrites e source destination hp _ _ i content)
    (hdest ▸ hset)
  have hall : accepted r.steps = received r.steps := hacc
  have hfirst := hend.first
  rw [hreceived, hlen] at hfirst
  refine ⟨hoff, hsize, hall.trans hfirst.symm, ?_, hout⟩
  rw [hall]
  exact hlen

/-- The source is read at most as often as it has bytes. -/
theorem copyto_reads (hh : Bounded h) (hp : PosixHost h view) {w : World σ} {i : Nat}
    (hpath : (view w.host).lookup source.bytes = some i) {content : List Byte}
    (hcontent : (view w.host).content i = content) :
    (copyto e h source destination w).2.steps.countP Step.isRead ≤ content.length := by
  have hE := copytoEnds_sound e source destination hh
  refine (copy_reads hE source destination w).trans ?_
  rw [copy_seekLength source destination w hE]
  split_ifs with hopen
  · have hstart := openSource_read e source destination hp hpath hopen
    rw [hcontent] at hstart
    obtain ⟨hlong, hshort, -, -⟩ := lseek_source hp hstart
    by_cases hoff : OFF_MAX < (content.length : Int)
    · rw [show ((copytoEnds e h source destination).seekEnd _ _).1 = -1 from hlong hoff]
      exact Nat.zero_le _
    · rw [show ((copytoEnds e h source destination).seekEnd _ _).1 = _ from hshort hoff]
      exact Nat.le_of_eq (Int.toNat_natCast _)
  · exact Nat.zero_le _

end Copyto

/-! ## A copy with nothing in its way -/

/-- One write is enough when it takes the whole buffer. -/
theorem writeLoop_full {μ : Type} {E : Ends μ} (hE : E.Sound) {fd bytes : Int} {buffer : List Byte}
    {r : Run μ} (hpos : 0 < bytes) (hmax : bytes ≤ 28000) (hlength : (buffer.length : Int) = bytes)
    (hwrite : (E.write fd buffer r.world).1 = bytes) :
    writeLoop E fd buffer bytes 0 r = (true, (r.take (E.write fd buffer) (.write buffer)).2) := by
  have hstep := writeLoop_step hE fd buffer hpos (by omega) r
  have hbuffer : peek buffer (Int.toNat 0) (bytes - 0).toNat = buffer := by
    rw [Int.sub_zero, ← hlength]
    exact peek_self buffer
  rw [hbuffer] at hstep
  have hall : (r.take (E.write fd buffer) (.write buffer)).1 = bytes := hwrite
  rcases hstep with ⟨hbad, -⟩ | ⟨-, heq⟩
  · rw [hall] at hbad
    rcases hbad with hneg | hover <;> omega
  · rw [heq, hall, writeLoop_end fd buffer (by omega)]

/-- When every read and every write moves all it is asked for, the outer loop runs to its end. -/
theorem copyLoop_full {μ : Type} {E : Ends μ} (hE : E.Sound) (fd0 fd1 : Int) {size : Int}
    {R : μ → Int → Prop}
    (hstep : ∀ w total, R w total → total < size →
      (E.read fd0 (chunk size total) w).1 = chunk size total ∧
        (E.write fd1 (E.read fd0 (chunk size total) w).2.1
          (E.read fd0 (chunk size total) w).2.2).1 = chunk size total ∧
        R (E.write fd1 (E.read fd0 (chunk size total) w).2.1
          (E.read fd0 (chunk size total) w).2.2).2 (total + chunk size total))
    {total : Int} (hle : total ≤ size) (r : Run μ) (hr : R r.world total) :
    (copyLoop E fd0 fd1 size total r).1 = true ∧
      R (copyLoop E fd0 fd1 size total r).2.2.world size := by
  induction hn : (size - total).toNat using Nat.strong_induction_on generalizing total r with
  | _ n ih =>
    by_cases h : total < size
    · obtain ⟨hcount, hmax, hrest⟩ := chunk_bounds h
      obtain ⟨hread, hwrite, hnext⟩ := hstep r.world total hr h
      have hloop := copyLoop_step hE fd0 fd1 h r
      obtain ⟨-, -, hdata⟩ := hE.read fd0 (chunk size total) r.world (by omega) hmax
      dsimp only at hloop
      set d := r.takeRead (E.read fd0 (chunk size total)) (chunk size total)
      have hbytes : d.1 = chunk size total := hread
      have hlength : (d.2.1.length : Int) = chunk size total :=
        (hdata (by omega)).trans hread
      have hfull := writeLoop_full (r := d.2.2) hE hcount hmax hlength hwrite
      rw [hbytes, hfull] at hloop
      rcases hloop with ⟨hbad, -⟩ | ⟨-, hl⟩
      · rcases hbad with hneg | hover <;> omega
      · rcases hl with ⟨hfalse, -⟩ | ⟨-, hl⟩
        · cases hfalse
        · rw [hl]
          exact ih (size - (total + chunk size total)).toNat (by omega) (by omega) _ hnext rfl
    · rw [copyLoop_end fd0 fd1 h]
      obtain rfl : total = size := by omega
      exact ⟨rfl, hr⟩

/-- The answers of a server that takes all of every write, to the writes of a copy of `n` bytes. -/
def replies (n : Nat) : List Byte :=
  if n = 0 then []
  else (reply (.ofNat 32 (min n 28000))).bytes ++ replies (n - min n 28000)
termination_by n
decreasing_by omega

/-- The copy stands at `total` bytes, and the server has all its further answers ready. -/
structure Ready (size : Int) (content rest : List Byte) (w : World HostFiles) (total : Int) :
    Prop where
  nonneg : 0 ≤ total
  writable : w.sock.Writable
  incoming : w.sock.incoming = replies (size - total).toNat ++ rest
  source : ∃ data, ReadSoFar w.host 3 0 content data ∧ (data.length : Int) = total

theorem ready_step (e : Endian) (source destination : CStr) {size : Int} {content rest : List Byte}
    (hsize : size ≤ content.length) {w : World HostFiles} {total fd1 : Int}
    (hr : Ready size content rest w total) (h : total < size) :
    let E := copytoEnds e fileHost source destination
    let d := E.read 3 (chunk size total) w
    d.1 = chunk size total ∧ (E.write fd1 d.2.1 d.2.2).1 = chunk size total ∧
      Ready size content rest (E.write fd1 d.2.1 d.2.2).2 (total + chunk size total) := by
  intro E d
  obtain ⟨hcount, hmax, hrest⟩ := chunk_bounds h
  obtain ⟨data, hs, hdata⟩ := hr.source
  obtain ⟨f, hopened, hinode, hreadable, hposition⟩ := hs.opened
  have hread : d = ((((w.host.read 3 (chunk size total).toNat).1.length : Int)),
      (w.host.read 3 (chunk size total).toNat).1,
      ⟨(w.host.read 3 (chunk size total).toNat).2, w.sock⟩) := by
    show hostRead fileHost 3 (chunk size total) w = _
    unfold hostRead hostCall
    rw [Ps2link.fileHost_read _ hopened hreadable]
  have hlength : ((w.host.read 3 (chunk size total).toNat).1.length : Int) = chunk size total := by
    rw [read_eq hopened, hinode, hs.holds, hposition, List.length_take, List.length_drop]
    omega
  have hchunk : ((min (size - total).toNat 28000 : Nat) : Int) = chunk size total := by
    unfold chunk
    split_ifs <;> omega
  have hk : (BitVec.ofNat 32 (min (size - total).toNat 28000)).toInt = chunk size total := by
    rw [← hchunk, ← BitVec.ofInt_natCast]
    exact toInt32_of_fits (by omega) (by omega)
  have hin := hr.incoming
  rw [replies, if_neg (by omega), List.append_assoc] at hin
  obtain ⟨hresult, hhost, hw, hnext⟩ := commandResult_reply e
    (c := .write (.ofInt 32 fd1) (.ofNat 32 d.2.1.length) d.2.1) (w := d.2.2) id
    (fun _ => ⟨rfl, rfl⟩) _ (by rw [hread]; exact hr.writable) _ (by rw [hread]; exact hin)
  rw [hk] at hresult
  refine ⟨?_, hresult, ?_, hw, ?_, ?_⟩
  · rw [hread]
    exact hlength
  · have := hr.nonneg
    omega
  · refine hnext.trans ?_
    congr 2
    omega
  · refine ⟨data ++ (w.host.read 3 (chunk size total).toNat).1, ?_, ?_⟩
    · rw [show ((E.write fd1 d.2.1 d.2.2).2).host = d.2.2.host from hhost, hread]
      exact hs.read _
    · rw [List.length_append, Int.natCast_add, hlength, hdata]

/-- A host where every path leads to a file with `content`, and a server that takes all it gets. -/
def obligingWorld (content : List Byte) : World HostFiles where
  host := ⟨fun _ => some 0, fun _ => content, fun _ => none⟩
  sock := .receiving ((reply 1).bytes ++
    (replies (toInt32 content.length).toNat ++ ((reply 0).bytes ++ [])))

theorem copyto_obliging (e : Endian) (source destination : CStr) (hname : destination.length < 256)
    {content : List Byte} (hoff : ¬ OFF_MAX < (content.length : Int))
    (hsize : 0 ≤ toInt32 content.length) :
    (copyto e fileHost source destination (obligingWorld content)).1 = 0 := by
  set w := obligingWorld content
  set E := copytoEnds e fileHost source destination with hEdef
  have hE : E.Sound := copytoEnds_sound e source destination fileHost_bounded
  have hopen : (E.openSource w).1 = 3 := rfl
  have hstart : ReadSoFar (E.openSource w).2.host (E.openSource w).1 0 content [] :=
    openSource_read e source destination fileHost_posix rfl (by rw [← hEdef, hopen]; decide)
  obtain ⟨-, hshort, hzero, hset⟩ := lseek_source fileHost_posix hstart
  have hcases := copyBody_cases (E := E) source destination w
  dsimp only at hcases
  set f := E.openSource w
  set n := E.seekEnd f.1 f.2
  set z := E.seekSet f.1 n.2
  have hn : n.1 = content.length := hshort hoff
  have hz : z.1 = 0 := hzero
  have hrefused : ¬ (Command.open (some destination)
      (OPEN_WRITE ||| OPEN_CREATE ||| OPEN_TRUNCATE)).Refused :=
    fun hrefused => Nat.not_le.mpr hname (hrefused destination rfl)
  obtain ⟨hg, hhost, hwritable, hin⟩ := commandResult_reply e hrefused (fun _ => ⟨rfl, rfl⟩) 1
    (w := z.2) (show Outcome.fail ∉ [] from List.not_mem_nil)
    (replies (toInt32 content.length).toNat ++ ((reply 0).bytes ++ [])) (incoming_receiving _)
  set g := E.openDestination z.2
  have hg : g.1 = 1 := hg
  rw [hn] at hcases
  rcases hcases with ⟨hbad, -⟩ | ⟨-, hbad, -⟩ | ⟨-, -, hbad, -⟩ | ⟨-, -, -, hbad, -⟩ |
    ⟨-, -, -, -, l, hloop, hl, hb⟩
  · omega
  · omega
  · omega
  · omega
  have hready : Ready (toInt32 content.length) content ((reply 0).bytes ++ []) g.2 0 := by
    refine ⟨Int.le_refl 0, hwritable, ?_, [], ?_, rfl⟩
    · rw [Int.sub_zero]
      exact hin
    · rw [show g.2.host = z.2.host from hhost]
      exact hset
  obtain ⟨hok, hend⟩ := copyLoop_full hE f.1 g.1 (fun w total hr hlt =>
    ready_step e source destination (toInt32_le (by omega)) hr hlt) hsize
      ⟨g.2, [.openSource f.1, .seekEnd content.length, .seekSet z.1, .openDestination g.1],
        [⟨"\n [%s --> %s]\n\n  Progress: ", [.string source, .string destination]⟩]⟩ hready
  rw [← hloop] at hok hend
  have hrest : l.2.2.world.sock.incoming = (reply 0).bytes ++ [] := by
    rw [hend.incoming, Int.sub_self, Int.toNat_zero, replies, if_pos rfl, List.nil_append]
  obtain ⟨hclose, -⟩ := commandResult_reply e (c := .close (.ofInt 32 g.1)) id
    (fun _ => ⟨rfl, rfl⟩) 0 (w := (E.closeSource f.1 l.2.2.world).2) hend.writable [] hrest
  have hdone := copyDone_good (E := E) ⟨f.1, g.1, l.2.1, if l.1 then 0 else -1⟩ l.2.2
    (by dsimp only; omega) (by dsimp only; omega) (Int.le_refl 0) (Int.le_of_eq hclose.symm)
  unfold copyto copy
  dsimp only
  rw [hl, hb, hdone, hok]
  rfl

/-! ## All of the source -/

/-- `fsclient_copyto` copies all of a source of any length below 2^32, and reports a failure for a
longer one whose length is a negative `int`. Of any other source it copies too little and returns
0. -/
theorem copyto_complete_iff (content : List Byte) :
    (∀ (σ : Type) (e : Endian) (h : Host σ) (view : σ → HostFiles) (source destination : CStr)
      (w : World σ) (i : Nat), Bounded h → PosixHost h view →
      (view w.host).lookup source.bytes = some i → (view w.host).content i = content →
      (copyto e h source destination w).2.steps.countP Step.isRead ≤ content.length ∧
        ((copyto e h source destination w).1 = 0 →
          accepted (copyto e h source destination w).2.steps = content ∧
          (copyto e h source destination w).2.out.getLast? =
            some ⟨"\n\n [%d Bytes Copied]\n\n", [.int content.length]⟩)) ↔
      content.length < 2 ^ 32 ∨ 2 ^ 31 ≤ content.length % 2 ^ 32 ∨ OFF_MAX < content.length := by
  constructor
  · intro hall
    by_contra hbad
    have hsize : toInt32 content.length = (content.length : Int) % 2 ^ 32 := by
      rw [toInt32_eq, if_pos (by omega)]
    have hoff : ¬ OFF_MAX < (content.length : Int) := by omega
    have hstatus := copyto_obliging .little ⟨literal "a", by decide⟩ ⟨literal "b", by decide⟩
      (by decide) hoff (by omega)
    obtain ⟨-, hcopied⟩ := hall HostFiles .little fileHost id _ _ (obligingWorld content) 0
      fileHost_bounded fileHost_posix rfl rfl
    obtain ⟨-, -, -, hlength, -⟩ := copyto_success .little _ _ fileHost_bounded fileHost_posix
      (w := obligingWorld content) rfl hstatus
    rw [(hcopied hstatus).1] at hlength
    have hshort : content.length = (toInt32 content.length).toNat := hlength
    omega
  · intro hgood σ e h view source destination w i hh hp hpath hcontent
    refine ⟨copyto_reads e source destination hh hp hpath hcontent, fun hstatus => ?_⟩
    obtain ⟨hoff, hsize, htaken, -, hout⟩ := copyto_success e source destination hh hp hpath hstatus
    rw [hcontent] at hoff hsize htaken hout
    have hexact : toInt32 content.length = content.length := by
      rw [toInt32_eq] at hsize ⊢
      split_ifs at hsize ⊢ <;> omega
    rw [hexact] at htaken hout
    rw [Int.toNat_natCast, List.take_length] at htaken
    exact ⟨htaken, hout⟩

/-- Of a source of 2^32 bytes nothing is copied, and `fsclient_copyto` returns 0. -/
theorem copyto_nothing {content : List Byte} (hlength : content.length = 2 ^ 32) (e : Endian)
    (source destination : CStr) (hname : destination.length < 256) :
    let r := copyto e fileHost source destination (obligingWorld content)
    r.1 = 0 ∧ accepted r.2.steps = [] ∧
      r.2.out.getLast? = some ⟨"\n\n [%d Bytes Copied]\n\n", [.int 0]⟩ := by
  have hzero : toInt32 content.length = 0 := by
    rw [hlength]
    decide
  have hoff : ¬ OFF_MAX < (content.length : Int) := by
    rw [hlength]
    decide
  intro r
  have hstatus : r.1 = 0 := copyto_obliging e source destination hname hoff (Int.le_of_eq hzero.symm)
  obtain ⟨-, -, -, hnone, hout⟩ := copyto_success e source destination fileHost_bounded
    fileHost_posix (w := obligingWorld content) (i := 0) rfl hstatus
  have hholds : (id (obligingWorld content).host : HostFiles).content 0 = content := rfl
  rw [hholds, hzero] at hnone hout
  exact ⟨hstatus, List.eq_nil_of_length_eq_zero hnone, hout⟩

/-- A source of 2^32 zero bytes. -/
theorem copyto_incomplete :
    let content : List Byte := List.replicate (2 ^ 32) 0
    let r := copyto .little fileHost ⟨literal "a", by decide⟩ ⟨literal "b", by decide⟩
      (obligingWorld content)
    r.1 = 0 ∧ accepted r.2.steps = [] ∧ accepted r.2.steps ≠ content ∧
      r.2.out.getLast? = some ⟨"\n\n [%d Bytes Copied]\n\n", [.int 0]⟩ := by
  intro content r
  have hlength : content.length = 2 ^ 32 := List.length_replicate
  obtain ⟨hstatus, hnone, hout⟩ := copyto_nothing hlength .little ⟨literal "a", by decide⟩
    ⟨literal "b", by decide⟩ (by decide)
  refine ⟨hstatus, hnone, ?_, hout⟩
  intro hall
  rw [← hall, show accepted r.2.steps = [] from hnone] at hlength
  exact absurd hlength (by decide)

end Fsclient

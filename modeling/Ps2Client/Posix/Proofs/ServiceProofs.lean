import Ps2Client.Posix.Proofs.FilesProofs
import Ps2Client.Posix.Service

/-!
# Proofs: a file service

The frame of an operation and of a run, and what is read after an upload.
-/

namespace Posix

variable {Path Inode α : Type}

/-! ## Frames -/

theorem read_content (fs : Files Path Inode α) (fd : Int) (n : Nat) :
    (fs.read fd n).2.content = fs.content ∧ (fs.read fd n).2.lookup = fs.lookup := by
  unfold Files.read
  split <;> exact ⟨rfl, rfl⟩

theorem lseek_content (fs : Files Path Inode α) (fd offset whence : Int) :
    (fs.lseek fd offset whence).2.content = fs.content ∧
      (fs.lseek fd offset whence).2.lookup = fs.lookup := by
  unfold Files.lseek
  split
  · exact ⟨rfl, rfl⟩
  · split
    · exact ⟨rfl, rfl⟩
    · split <;> exact ⟨rfl, rfl⟩

variable [DecidableEq Inode] [Inhabited α]
variable {fs fs' : Files Path Inode α} {op : Op Path α} {reply : Reply α} {fd : Int}
variable {f : OpenFile Inode} {i : Inode}

theorem write_frame (data : List α) (hopened : fs.opened fd = some f) (hi : f.inode ≠ i) :
    (fs.write fd data).content i = fs.content i := by
  unfold Files.write
  rw [hopened]
  exact Function.update_of_ne (Ne.symm hi) ..

theorem write_lookup (fs : Files Path Inode α) (fd : Int) (data : List α) :
    (fs.write fd data).lookup = fs.lookup := by
  unfold Files.write
  split <;> rfl

theorem Serves.lookup (hserves : Serves op reply fs fs') : fs'.lookup = fs.lookup := by
  cases hserves with
  | notOpened | notWritten => rfl
  | opened readable append truncate fd hpath => rfl
  | closed fd n => rfl
  | read n hopened hreadable hn hend => exact (read_content ..).2
  | written n hopened hn => exact write_lookup ..
  | sought fd offset whence => exact (lseek_content ..).2

/-- An operation leaves the files it does not touch. -/
theorem Serves.frame (hserves : Serves op reply fs fs') (hi : ¬ op.Touches fs i) :
    fs'.content i = fs.content i := by
  cases hserves with
  | notOpened | notWritten => rfl
  | opened readable append truncate fd hpath =>
    cases truncate with
    | false => rfl
    | true =>
      refine Function.update_of_ne ?_ ..
      rintro rfl
      exact hi ⟨rfl, hpath⟩
  | closed fd n => rfl
  | read n hopened hreadable hn hend => rw [(read_content ..).1]
  | written n hopened hn => exact write_frame _ hopened fun heq => hi ⟨_, hopened, heq⟩
  | sought fd offset whence => rw [(lseek_content ..).1]

/-! ## Runs -/

theorem runs_append {before after : List (Op Path α × Reply α)} :
    Runs (before ++ after) fs fs' ↔ ∃ fs₁, Runs before fs fs₁ ∧ Runs after fs₁ fs' := by
  induction before generalizing fs with
  | nil =>
    constructor
    · exact fun hrun => ⟨fs, .nil fs, hrun⟩
    · rintro ⟨fs₁, hnil, hrun⟩
      cases hnil
      exact hrun
  | cons step before ih =>
    constructor
    · intro hrun
      cases hrun with
      | cons hserves hrest =>
        obtain ⟨fs₁, hbefore, hafter⟩ := ih.mp hrest
        exact ⟨fs₁, .cons hserves hbefore, hafter⟩
    · rintro ⟨fs₁, hbefore, hafter⟩
      cases hbefore with
      | cons hserves hrest => exact .cons hserves (ih.mpr ⟨fs₁, hrest, hafter⟩)

theorem runs_singleton : Runs [(op, reply)] fs fs' ↔ Serves op reply fs fs' := by
  constructor
  · intro hrun
    cases hrun with
    | cons hserves hrest =>
      cases hrest
      exact hserves
  · exact fun hserves => .cons hserves (.nil fs')

theorem Runs.lookup {run : List (Op Path α × Reply α)} (hrun : Runs run fs fs') :
    fs'.lookup = fs.lookup := by
  induction hrun with
  | nil => rfl
  | cons hserves _ ih => exact ih.trans hserves.lookup

/-! ## An upload -/

/-- An `open` that is answered by a descriptor. -/
theorem Serves.opened_at {path : Path} {readable append truncate : Bool} (hfd : 0 ≤ fd)
    (hserves : Serves (.open path readable append truncate) (.result fd) fs fs') :
    ∃ i, fs.lookup path = some i ∧ fs' = fs.open i fd readable append truncate := by
  cases hserves with
  | notOpened => exact absurd hfd (by decide)
  | opened _ _ _ _ hpath => exact ⟨_, hpath, rfl⟩

/-- A `write` that is answered by the size of its data has written them. -/
theorem Serves.written_whole {data : List α} {n : Int} (hn : n = data.length)
    (hserves : Serves (.write fd data) (.result n) fs fs') : fs' = fs.write fd data := by
  cases hserves with
  | notWritten => exact absurd hn (by omega)
  | written n hopened hle =>
    rw [Int.ofNat.inj hn, List.take_length]

theorem Serves.closed_at (hserves : Serves (.close fd) reply fs fs') : fs' = fs.close fd := by
  cases hserves with
  | closed => rfl

/-- Writes at the end of a file add to it. -/
theorem Runs.writes {chunks : List (List α)} (hopened : fs.opened fd = some f)
    (hend : f.position = (fs.content f.inode).length)
    (hrun : Runs (chunks.map fun chunk => (.write fd chunk, .result chunk.length)) fs fs') :
    fs'.content f.inode = fs.content f.inode ++ chunks.flatten := by
  induction chunks generalizing fs f with
  | nil =>
    cases hrun
    rw [List.flatten_nil, List.append_nil]
  | cons chunk chunks ih =>
    cases hrun with
    | cons hserves hrest =>
      have heq := hserves.written_whole rfl
      obtain ⟨hcontent, hmoved, -⟩ := write_at_end hopened hend chunk
      rw [← heq] at hcontent hmoved
      have hnext := ih hmoved (by rw [hcontent, List.length_append, hend]) hrest
      rw [hnext, hcontent, List.flatten_cons, List.append_assoc]

theorem Runs.upload {path : Path} {readable append : Bool} {n : Int} {chunks : List (List α)}
    (hfd : 0 ≤ fd) (hrun : Runs (upload path readable append fd n chunks) fs fs') :
    ∃ i, fs.lookup path = some i ∧ fs'.content i = chunks.flatten := by
  cases hrun with
  | cons hserves hrest =>
    obtain ⟨i, hpath, rfl⟩ := hserves.opened_at hfd
    obtain ⟨fs₁, hwrites, hclose⟩ := runs_append.mp hrest
    refine ⟨i, hpath, ?_⟩
    have hempty : (fs.open i fd readable append true).content i = [] := open_content ..
    have hwritten := hwrites.writes (open_opened fs i fd readable append true) (by
      rw [hempty]
      rfl)
    rw [(runs_singleton.mp hclose).frame (fun htouches => htouches), hwritten, hempty, List.nil_append]

/-! ## A download -/

/-- A `read` that is answered by data. -/
theorem Serves.read_data {size : Nat} {bytes : List α} (hopened : fs.opened fd = some f)
    (hserves : Serves (.read fd size) (.data bytes) fs fs') :
    bytes <+: (fs.content f.inode).drop f.position ∧
      fs'.opened fd = some { f with position := f.position + bytes.length } ∧
      (bytes = [] → 0 < size → (fs.content f.inode).drop f.position = []) := by
  cases hserves with
  | read n hopened' hreadable hn hend =>
    rw [hopened] at hopened'
    cases hopened'
    rw [read_eq hopened]
    refine ⟨List.take_prefix .., moveTo_opened .., ?_⟩
    intro hempty hsize
    rcases List.take_eq_nil_iff.mp hempty with hzero | hnil
    · rcases hend hzero with hnone | hpast
      · omega
      · exact List.drop_eq_nil_of_le hpast
    · exact hnil

/-- Reads up to an answer without data give the rest of the file. -/
theorem Runs.reads {reads : List (Nat × List α)} {last : Nat} (hopened : fs.opened fd = some f)
    (hlast : 0 < last)
    (hrun : Runs (reads.map (fun r => (.read fd r.1, .data r.2)) ++ [(.read fd last, .data [])]) fs fs') :
    (reads.map Prod.snd).flatten = (fs.content f.inode).drop f.position := by
  induction reads generalizing fs f with
  | nil =>
    obtain ⟨-, -, hend⟩ := (runs_singleton.mp hrun).read_data hopened
    exact (hend rfl hlast).symm
  | cons r reads ih =>
    cases hrun with
    | cons hserves hrest =>
      obtain ⟨hfront, hmoved, -⟩ := hserves.read_data hopened
      have hsame := hserves.frame (i := f.inode) fun htouches => htouches
      have hnext := ih hmoved hrest
      obtain ⟨rest, hrest⟩ := hfront
      rw [List.map_cons, List.flatten_cons, hnext, hsame, ← hrest, ← List.drop_drop, ← hrest,
        List.drop_left]

theorem Runs.download {path : Path} {readable append : Bool} {reads : List (Nat × List α)}
    {last : Nat} (hfd : 0 ≤ fd) (hlast : 0 < last)
    (hrun : Runs (download path readable append fd reads last) fs fs') :
    ∃ i, fs.lookup path = some i ∧ (reads.map Prod.snd).flatten = fs.content i := by
  cases hrun with
  | cons hserves hrest =>
    obtain ⟨i, hpath, rfl⟩ := hserves.opened_at hfd
    refine ⟨i, hpath, ?_⟩
    rw [hrest.reads (open_opened fs i fd readable append false) hlast]
    rfl

/-! ## There and back -/

/-- What is read after an upload is what was uploaded, when the operations in between do not touch the
file. -/
theorem Runs.there_and_back {path : Path} {readable append readable' append' : Bool} {fd' n : Int}
    {chunks : List (List α)} {between : List (Op Path α × Reply α)} {reads : List (Nat × List α)}
    {last : Nat} {fs₁ fs₂ fs₃ : Files Path Inode α} (hfd : 0 ≤ fd) (hfd' : 0 ≤ fd') (hlast : 0 < last)
    (hup : Runs (Posix.upload path readable append fd n chunks) fs fs₁)
    (hbetween : Runs between fs₁ fs₂)
    (hframe : ∀ i, fs₁.lookup path = some i → fs₂.content i = fs₁.content i)
    (hdown : Runs (Posix.download path readable' append' fd' reads last) fs₂ fs₃) :
    (reads.map Prod.snd).flatten = chunks.flatten := by
  obtain ⟨i, hpath, hcontent⟩ := hup.upload hfd
  obtain ⟨j, hpath', hread⟩ := hdown.download hfd' hlast
  have hpath₁ : fs₁.lookup path = some i := by
    rw [hup.lookup]
    exact hpath
  rw [hbetween.lookup, hpath₁] at hpath'
  cases hpath'
  rw [hread, hframe i hpath₁, hcontent]

end Posix

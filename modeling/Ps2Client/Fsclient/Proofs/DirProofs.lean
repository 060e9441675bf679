import Ps2Client.CMemory.Proofs.BoundedProofs
import Ps2Client.Fsclient.Dir
import Ps2Client.Fsclient.Proofs.CompleteProofs

/-!
# Proofs: `fsclient_dir`
-/

namespace Fsclient

open CMemory Network Ps2netfs
open Ps2link (Host HostFiles fileHost)

variable {σ : Type} (e : Endian) (h : Host σ)

/-! ## Entries -/

theorem entryLine_of_mem {dirent : List Byte} (hname : 0 ∈ name dirent) :
    ∃ line, entryLine e dirent = some line := by
  rw [entryLine, string?_eq, if_pos hname]
  exact ⟨_, rfl⟩

theorem entryLine_of_notMem {dirent : List Byte} (hname : 0 ∉ name dirent) :
    entryLine e dirent = none := by
  rw [entryLine, string?_eq, if_neg hname]
  rfl

/-- Every entry has a line exactly when every name has an end. -/
theorem lines_iff (entries : List (List Byte)) :
    (∃ lines : List (List Printed), entries.map (entryLine e) = lines.map some) ↔
      ∀ dirent ∈ entries, 0 ∈ name dirent := by
  constructor
  · rintro ⟨lines, hlines⟩ dirent hmem
    by_contra hname
    have hnone : none ∈ lines.map some := by
      rw [← hlines]
      exact List.mem_map.mpr ⟨dirent, hmem, entryLine_of_notMem e hname⟩
    obtain ⟨line, -, hline⟩ := List.mem_map.mp hnone
    cases hline
  · intro hnames
    induction entries with
    | nil => exact ⟨[], rfl⟩
    | cons dirent entries ih =>
      obtain ⟨line, hline⟩ := entryLine_of_mem e (hnames dirent List.mem_cons_self)
      obtain ⟨lines, hlines⟩ := ih fun d hd => hnames d (List.mem_cons_of_mem _ hd)
      exact ⟨line :: lines, by rw [List.map_cons, List.map_cons, hline, hlines]⟩

/-! ## The loop -/

theorem dirLoop_end {dd : Int} {w : World σ} (hend : ¬ 0 < (dread e h dd w).1)
    (files total : Int) :
    dirLoop e h dd files total w = some (files, total, [], (dread e h dd w).2.2) := by
  rw [dirLoop]
  exact dif_neg hend

theorem dirLoop_entry {dd : Int} {w : World σ} (hpos : 0 < (dread e h dd w).1) {line : List Printed}
    (hline : entryLine e (dread e h dd w).2.1 = some line) {files : Int}
    (hfiles : int? (files + 1) = some (files + 1)) (total : Int) :
    dirLoop e h dd files total w =
      (dirLoop e h dd (files + 1) (toInt32 (total + (size e (dread e h dd w).2.1).toNat))
        (dread e h dd w).2.2).map fun (files, total, out, w) => (files, total, line ++ out, w) := by
  rw [dirLoop]
  dsimp only
  rw [dif_pos hpos, hline, hfiles]

theorem dirLoop_noName {dd : Int} {w : World σ} (hpos : 0 < (dread e h dd w).1)
    (hline : entryLine e (dread e h dd w).2.1 = none) (files total : Int) :
    dirLoop e h dd files total w = none := by
  rw [dirLoop]
  dsimp only
  rw [dif_pos hpos, hline]

theorem dirLoop_overflow {dd : Int} {w : World σ} (hpos : 0 < (dread e h dd w).1) {files : Int}
    (hfiles : int? (files + 1) = none) (total : Int) : dirLoop e h dd files total w = none := by
  rw [dirLoop]
  dsimp only
  rw [dif_pos hpos, hfiles]
  split
  · contradiction
  · rfl

/-- Sizes added without a sign, one after the other, are the sum cut to 32 bits. -/
theorem toInt32_add (x : Int) (n : Nat) : toInt32 (toInt32 x + n) = toInt32 (x + n) := by
  rw [toInt32_eq (toInt32 x + n), toInt32_eq (x + n), toInt32_eq x]
  split_ifs <;> omega

/-- The loop over entries that all have a line. -/
theorem dirLoop_listed {dd last : Int} {w w' : World σ} {entries : List (List Byte)}
    (hl : Listed e h dd w entries last w') {lines : List (List Printed)}
    (hlines : entries.map (entryLine e) = lines.map some) (files total : Int) (hpos : 0 ≤ files)
    (hfiles : files + entries.length < 2 ^ 31) (htotal : toInt32 total = total) :
    dirLoop e h dd files total w =
      some (files + entries.length, toInt32 (total + totalSize e entries), lines.flatten, w') := by
  induction hl generalizing lines files total with
  | last hend =>
    rw [List.map_nil] at hlines
    rw [dirLoop_end e h hend, List.map_eq_nil_iff.mp hlines.symm]
    simp [totalSize, htotal]
  | @entry w w' entries last hread _ ih =>
    cases lines with
    | nil => cases hlines
    | cons line lines =>
      obtain ⟨hline, hlines⟩ := List.cons.inj hlines
      rw [List.length_cons] at hfiles
      have hrest := ih hlines (files + 1)
        (toInt32 (total + (size e (dread e h dd w).2.1).toNat)) (by omega) (by omega)
        (toInt32_toInt32 _)
      have hcount : files + 1 + (entries.length : Int) = files + ((entries.length + 1 : Nat) : Int) := by
        omega
      have hsum : total + (size e (dread e h dd w).2.1).toNat + (totalSize e entries : Int) =
          total + (totalSize e ((dread e h dd w).2.1 :: entries) : Int) := by
        rw [totalSize]
        omega
      rw [toInt32_add, hcount, hsum] at hrest
      rw [dirLoop_entry e h hread hline (int?_of_fits (by omega) (by omega)), hrest]
      rfl

/-- The loop over entries of which one has no line, or which are too many to be counted. -/
theorem dirLoop_undefined {dd last : Int} {w w' : World σ} {entries : List (List Byte)}
    (hl : Listed e h dd w entries last w') {files : Int} (hpos : 0 ≤ files) (hint : files < 2 ^ 31)
    (hbad : (∃ dirent ∈ entries, 0 ∉ name dirent) ∨ 2 ^ 31 ≤ files + entries.length) (total : Int) :
    dirLoop e h dd files total w = none := by
  induction hl generalizing files total with
  | last hend =>
    rcases hbad with ⟨dirent, hmem, -⟩ | hmany
    · cases hmem
    · rw [List.length_nil] at hmany
      omega
  | @entry w w' entries last hread _ ih =>
    by_cases hname : 0 ∈ name (dread e h dd w).2.1
    · obtain ⟨line, hline⟩ := entryLine_of_mem e hname
      by_cases hfiles : files + 1 < 2 ^ 31
      · have hrest : (∃ dirent ∈ entries, 0 ∉ name dirent) ∨
            2 ^ 31 ≤ (files + 1) + entries.length := by
          rcases hbad with ⟨dirent, hmem, hnone⟩ | hmany
          · rcases List.mem_cons.mp hmem with rfl | hmem
            · exact absurd hname hnone
            · exact Or.inl ⟨dirent, hmem, hnone⟩
          · rw [List.length_cons] at hmany
            exact Or.inr (by omega)
        rw [dirLoop_entry e h hread hline (int?_of_fits (by omega) hfiles),
          ih (by omega) hfiles hrest]
        rfl
      · exact dirLoop_overflow e h hread (int?_of_overflow (by omega)) total
    · exact dirLoop_noName e h hread (entryLine_of_notMem e hname) files total

/-- There is a last response on every connection. -/
theorem exists_listed (dd : Int) (w : World σ) :
    ∃ entries last w', Listed e h dd w entries last w' := by
  by_cases hread : 0 < (dread e h dd w).1
  · obtain ⟨entries, last, w', hrest⟩ := exists_listed dd (dread e h dd w).2.2
    exact ⟨_, last, w', .entry hread hrest⟩
  · exact ⟨[], _, _, .last hread⟩
termination_by w.sock.incoming.length
decreasing_by exact dread_pos e h hread

/-! ## The listing -/

/-- What comes behind the loop. -/
theorem dir_loop {pathname : CStr} {w w' : World σ} {files total : Int} {lines : List Printed}
    (hopen : 0 ≤ (commandResult e h (.dopen (some pathname) 0) w).1)
    (hloop : dirLoop e h (commandResult e h (.dopen (some pathname) 0) w).1 0 0
      (commandResult e h (.dopen (some pathname) 0) w).2 = some (files, total, lines, w')) :
    let c := commandResult e h
      (.dclose (.ofInt 32 (commandResult e h (.dopen (some pathname) 0) w).1)) w'
    dir e h pathname w = some (if c.1 < 0 then -1 else 0,
      ⟨"\n [Contents of %s]\n\n", [.string pathname]⟩ :: lines ++
        ⟨"\n [%d Files - %d Bytes]\n\n", [.int files, .int total]⟩ ::
        (if c.1 < 0 then [⟨"Error: Close directory failed. (%d)\n", [.int c.1]⟩] else []), c.2) := by
  intro c
  unfold dir
  dsimp only
  rw [if_neg (Int.not_lt.mpr hopen), hloop]
  dsimp only
  by_cases hclose : c.1 < 0
  · rw [if_pos hclose, if_pos hclose, if_pos hclose, List.append_assoc]
    rfl
  · rw [if_neg hclose, if_neg hclose, if_neg hclose]

theorem dir_undefined {pathname : CStr} {w : World σ}
    (hopen : 0 ≤ (commandResult e h (.dopen (some pathname) 0) w).1)
    (hloop : dirLoop e h (commandResult e h (.dopen (some pathname) 0) w).1 0 0
      (commandResult e h (.dopen (some pathname) 0) w).2 = none) : dir e h pathname w = none := by
  unfold dir
  dsimp only
  rw [if_neg (Int.not_lt.mpr hopen), hloop]

theorem toInt32_natCast_iff (n : Nat) : toInt32 n = n ↔ n < 2 ^ 31 := by
  rw [toInt32_eq]
  split_ifs <;> omega

/-- A run through the loop lists the entries, with a total that is cut to an `int`. -/
theorem listsExactly_iff {entries : List (List Byte)} {lines : List (List Printed)}
    (hlines : entries.map (entryLine e) = lines.map some) (pathname : CStr) (last closed : Int)
    (w : World σ) :
    ListsExactly e pathname entries last closed (some (if closed < 0 then -1 else 0,
      ⟨"\n [Contents of %s]\n\n", [.string pathname]⟩ :: lines.flatten ++
        ⟨"\n [%d Files - %d Bytes]\n\n",
          [.int entries.length, .int (toInt32 (totalSize e entries))]⟩ ::
        (if closed < 0 then [⟨"Error: Close directory failed. (%d)\n", [.int closed]⟩] else []), w)) ↔
      (last = 0 ∨ closed < 0) ∧ totalSize e entries < 2 ^ 31 := by
  constructor
  · rintro ⟨status, out, end', lines', hrun, hlines', hout, hstatus⟩
    have hresult := congrArg Prod.fst (Option.some.inj hrun)
    have hprinted := congrArg (fun r => r.2.1) (Option.some.inj hrun)
    dsimp only at hresult hprinted
    have hsame : lines' = lines :=
      List.map_injective_iff.mpr (fun _ _ => Option.some.inj) (hlines'.symm.trans hlines)
    rw [hsame, ← hprinted] at hout
    have hfooter := (List.cons.inj (List.append_cancel_left hout)).1
    have htotal : toInt32 (totalSize e entries) = totalSize e entries := by
      simpa using congrArg Printed.args hfooter
    refine ⟨?_, (toInt32_natCast_iff _).mp htotal⟩
    by_cases hclosed : closed < 0
    · exact Or.inr hclosed
    · exact Or.inl (hstatus (hresult.symm.trans (if_neg hclosed))).1
  · rintro ⟨hend, htotal⟩
    refine ⟨_, _, _, lines, rfl, hlines, ?_, fun hstatus => ?_⟩
    · rw [(toInt32_natCast_iff _).mpr htotal]
    · by_cases hclosed : closed < 0
      · rw [if_pos hclosed] at hstatus
        cases hstatus
      · exact ⟨hend.resolve_right hclosed, Int.not_lt.mp hclosed⟩

/-- The listing is complete and its totals are exact when, and only when, it did not end with an
error that closing the directory hides, the totals are `int`s and every name has an end. -/
theorem dir_exact_iff {pathname : CStr} {w w' : World σ} {entries : List (List Byte)} {last : Int}
    (hopen : 0 ≤ (commandResult e h (.dopen (some pathname) 0) w).1)
    (hl : Listed e h (commandResult e h (.dopen (some pathname) 0) w).1
      (commandResult e h (.dopen (some pathname) 0) w).2 entries last w') :
    let closed := (commandResult e h
      (.dclose (.ofInt 32 (commandResult e h (.dopen (some pathname) 0) w).1)) w').1
    ListsExactly e pathname entries last closed (dir e h pathname w) ↔
      (last = 0 ∨ closed < 0) ∧ entries.length < 2 ^ 31 ∧ totalSize e entries < 2 ^ 31 ∧
        ∀ dirent ∈ entries, 0 ∈ name dirent := by
  intro closed
  by_cases hgood : (∀ dirent ∈ entries, 0 ∈ name dirent) ∧ entries.length < 2 ^ 31
  · obtain ⟨hnames, hcount⟩ := hgood
    obtain ⟨lines, hlines⟩ := (lines_iff e entries).mpr hnames
    have hloop := dirLoop_listed e h hl hlines 0 0 (Int.le_refl 0) (by omega) rfl
    rw [Int.zero_add, Int.zero_add] at hloop
    rw [dir_loop e h hopen hloop, listsExactly_iff e hlines]
    constructor
    · rintro ⟨hend, htotal⟩
      exact ⟨hend, hcount, htotal, hnames⟩
    · rintro ⟨hend, -, htotal, -⟩
      exact ⟨hend, htotal⟩
  · have hbad : (∃ dirent ∈ entries, 0 ∉ name dirent) ∨ 2 ^ 31 ≤ (0 : Int) + entries.length := by
      by_contra hnone
      refine hgood ⟨fun dirent hmem => ?_, by omega⟩
      by_contra hname
      exact hnone (Or.inl ⟨dirent, hmem, hname⟩)
    rw [dir_undefined e h hopen (dirLoop_undefined e h hl (Int.le_refl 0) (by decide) hbad 0)]
    refine iff_of_false ?_ fun hall => hgood ⟨hall.2.2.2, hall.2.1⟩
    rintro ⟨_, _, _, _, hrun, -⟩
    cases hrun

/-! ## A server with a directory -/

/-- The response to `dread` with the result `k` and a `DIRENT`. -/
def entryAnswer (k : Word) (dirent : List Byte) : Answer :=
  ⟨be32 COMMAND_DREAD ++ be16 306 ++ (be32 k ++ dirent), []⟩

theorem entryAnswer_isTo (k dd : Word) {dirent : List Byte} (hlength : dirent.length = 296) :
    (entryAnswer k dirent).IsTo (.dread dd) := by
  refine ⟨?_, rfl⟩
  show (be32 COMMAND_DREAD ++ be16 306 ++ (be32 k ++ dirent)).length = 306
  simp only [List.length_append, be32_length, be16_length, hlength]

/-- What `ps2netfs_command_dread` returns and stores. -/
theorem dread_answer (k : Word) (dd : Int) {dirent rest : List Byte} (hlength : dirent.length = 296)
    {w : World HostFiles} (hw : w.sock.Writable)
    (hin : w.sock.incoming = (entryAnswer k dirent).bytes ++ rest) :
    ∃ w', dread e fileHost dd w = (k.toInt, dirent, w') ∧ w'.sock.Writable ∧
      w'.sock.incoming = rest := by
  obtain ⟨s', hcall, hin', -, hw'⟩ := call_answer e (c := .dread (.ofInt 32 dd)) id
    (entryAnswer_isTo k _ hlength)
    (fileHost.uninit (6 + sizeof (Command.dread (.ofInt 32 dd)).fields) w.host).1 hw hin
  have hresult : (entryAnswer k dirent).result = k.toInt :=
    congrArg BitVec.toInt (net32_be32 k rfl)
  have hstored : peek (entryAnswer k dirent).response 10 296 = dirent := by
    have hfields : (entryAnswer k dirent).response.drop 10 = dirent := by
      rw [entryAnswer, ← List.append_assoc]
      exact List.drop_left' rfl
    rw [peek_eq_take_drop (by rw [(entryAnswer_isTo k 0 hlength).1]; decide), hfields,
      List.take_of_length_le (Nat.le_of_eq hlength)]
  refine ⟨⟨w.host, s'⟩, ?_, hw', hin'⟩
  unfold dread command
  dsimp only
  rw [hcall]
  exact congrArg₂ (fun a b => (a, b, (⟨w.host, s'⟩ : World HostFiles))) hresult hstored

/-- A server that answers every `dread` with the next entry, and the last one with the result `k`. -/
theorem listed_answers {k : Word} (hk : ¬ 0 < k.toInt) (dd : Int) (rest : List Byte) :
    ∀ (entries : List (List Byte)) (w : World HostFiles), (∀ d ∈ entries, d.length = 296) →
      w.sock.Writable →
      w.sock.incoming = (entries.flatMap fun d => (entryAnswer 1 d).bytes) ++
        ((entryAnswer k (List.replicate 296 0)).bytes ++ rest) →
      ∃ w', Listed e fileHost dd w entries k.toInt w' ∧ w'.sock.Writable ∧
        w'.sock.incoming = rest := by
  intro entries
  induction entries with
  | nil =>
    intro w _ hw hin
    obtain ⟨w', hread, hw', hin'⟩ := dread_answer e k dd List.length_replicate hw hin
    have hlisted : Listed e fileHost dd w [] (dread e fileHost dd w).1 (dread e fileHost dd w).2.2 :=
      .last (by rw [hread]; exact hk)
    rw [hread] at hlisted
    exact ⟨w', hlisted, hw', hin'⟩
  | cons dirent entries ih =>
    intro w hlengths hw hin
    obtain ⟨hlength, hlengths⟩ := List.forall_mem_cons.mp hlengths
    rw [List.flatMap_cons, List.append_assoc] at hin
    obtain ⟨w₁, hread, hw₁, hin₁⟩ := dread_answer e 1 dd hlength hw hin
    obtain ⟨w', hlisted, hw', hin'⟩ := ih w₁ hlengths hw₁ hin₁
    refine ⟨w', ?_, hw', hin'⟩
    have hentry : Listed e fileHost dd w ((dread e fileHost dd w).2.1 :: entries) k.toInt w' := by
      refine .entry ?_ ?_
      · rw [hread]
        exact Int.one_pos
      · rwa [hread]
    rwa [hread] at hentry

/-- A server that opens a directory with `entries`, ends it with the result `k`, and closes it. -/
def dirWorld (entries : List (List Byte)) (k : Word) : World HostFiles where
  host := ⟨fun _ => none, fun _ => [], fun _ => none⟩
  sock := .receiving ((reply 1).bytes ++ ((entries.flatMap fun d => (entryAnswer 1 d).bytes) ++
    ((entryAnswer k (List.replicate 296 0)).bytes ++ ((reply 0).bytes ++ []))))

theorem dirWorld_listed (pathname : CStr) {entries : List (List Byte)}
    (hlengths : ∀ d ∈ entries, d.length = 296) {k : Word} (hk : ¬ 0 < k.toInt) :
    let d := commandResult e fileHost (.dopen (some pathname) 0) (dirWorld entries k)
    d.1 = 1 ∧ ∃ w', Listed e fileHost d.1 d.2 entries k.toInt w' ∧
      (commandResult e fileHost (.dclose (.ofInt 32 d.1)) w').1 = 0 := by
  intro d
  obtain ⟨hopen, -, hw, hin⟩ := commandResult_reply e (c := .dopen (some pathname) 0) id
    (fun _ => ⟨rfl, rfl⟩) 1 (w := dirWorld entries k) List.not_mem_nil _ (incoming_receiving _)
  obtain ⟨w', hlisted, hw', hin'⟩ := listed_answers e hk d.1 _ entries d.2 hlengths hw hin
  exact ⟨hopen, w', hlisted, (commandResult_reply e (c := .dclose (.ofInt 32 d.1)) id
    (fun _ => ⟨rfl, rfl⟩) 0 hw' _ hin').1⟩

/-- The `DIRENT` of a file whose name has at most 256 bytes. -/
def fileEntry (size : Word) (name : List Byte) : List Byte :=
  be32 0x2124 ++ be32 0 ++ be32 size ++ List.replicate 28 0 ++
    (name ++ List.replicate (256 - name.length) 0)

theorem fileEntry_length (size : Word) {name : List Byte} (hname : name.length ≤ 256) :
    (fileEntry size name).length = 296 := by
  simp only [fileEntry, List.length_append, List.length_replicate, be32_length]
  omega

/-- A directory of two files. -/
theorem dir_exact_two :
    let name : CStr := ⟨literal "mc0:/", by decide⟩
    let entries : List (List Byte) :=
      [fileEntry 70000 (literal "SYSTEM.CNF"), fileEntry 512 (literal "icon.sys")]
    let d := commandResult .little fileHost (.dopen (some name) 0) (dirWorld entries 0)
    totalSize .little entries = 70512 ∧ ∃ w', Listed .little fileHost d.1 d.2 entries 0 w' ∧
      let closed := (commandResult .little fileHost (.dclose (.ofInt 32 d.1)) w').1
      (ListsExactly .little name entries 0 closed
          (dir .little fileHost name (dirWorld entries 0)) ↔
        ((0 : Int) = 0 ∨ closed < 0) ∧ entries.length < 2 ^ 31 ∧ totalSize .little entries < 2 ^ 31 ∧
          ∀ dirent ∈ entries, 0 ∈ Fsclient.name dirent) := by
  intro name entries d
  have hlengths : ∀ dirent ∈ entries, dirent.length = 296 := by
    intro dirent hdirent
    rcases List.mem_pair.mp hdirent with rfl | rfl <;> exact fileEntry_length _ (by decide)
  obtain ⟨hopen, w', hlisted, -⟩ := dirWorld_listed .little name hlengths (k := 0) (by decide)
  have hopen : d.1 = 1 := hopen
  exact ⟨by decide, w', hlisted, dir_exact_iff .little fileHost (by omega) hlisted⟩

/-- The first response is an error, and closing the directory works: the listing of no files counts
as a success. -/
theorem dir_hides_error :
    let name : CStr := ⟨literal "mc0:/", by decide⟩
    let d := commandResult .little fileHost (.dopen (some name) 0) (dirWorld [] (-5))
    d.1 = 1 ∧ ∃ w', Listed .little fileHost d.1 d.2 [] (-5) w' ∧
      (commandResult .little fileHost (.dclose (.ofInt 32 d.1)) w').1 = 0 ∧
      ¬ ListsExactly .little name [] (-5) 0 (dir .little fileHost name (dirWorld [] (-5))) := by
  intro name d
  obtain ⟨hopen, w', hlisted, hclose⟩ :=
    dirWorld_listed .little name (List.forall_mem_nil _) (k := -5) (by decide)
  refine ⟨hopen, w', hlisted, hclose, ?_⟩
  have hnone : ([] : List (List Byte)).map (entryLine .little) = [].map some := rfl
  have hloop := dirLoop_listed .little fileHost hlisted hnone 0 0 (Int.le_refl 0) (by decide) rfl
  have hdir := dir_loop .little fileHost (by rw [hopen]; decide) hloop
  rintro ⟨status, out, end', lines, hrun, -, -, hstatus⟩
  rw [hdir] at hrun
  have hzero := congrArg Prod.fst (Option.some.inj hrun)
  dsimp only at hzero
  rw [if_neg (by rw [hclose]; decide)] at hzero
  exact absurd (hstatus hzero.symm).1 (by decide)

end Fsclient

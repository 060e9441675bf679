import Ps2Client.Posix.Files

/-!
# Proofs: regular files and their descriptors
-/

namespace Posix

variable {Path Inode α : Type} {fs : Files Path Inode α} {fd : Int} {f : OpenFile Inode}

@[simp] theorem moveTo_opened (fs : Files Path Inode α) (fd : Int) (f : OpenFile Inode)
    (position : Nat) : (fs.moveTo fd f position).opened fd = some { f with position := position } :=
  Function.update_self ..

theorem moveTo_self (hf : fs.opened fd = some f) : fs.moveTo fd f f.position = fs := by
  have hsame : Function.update fs.opened fd (some f) = fs.opened := by
    rw [← hf, Function.update_eq_self]
  exact congrArg (Files.mk fs.lookup fs.content) hsame

theorem moveTo_inj {p q : Nat} (hpq : fs.moveTo fd f p = fs.moveTo fd f q) : p = q := by
  have hopened := congrArg (fun fs : Files Path Inode α => fs.opened fd) hpq
  simp only [moveTo_opened] at hopened
  exact congrArg OpenFile.position (Option.some.inj hopened)

theorem lseek_eq {base : Nat} {whence : Int} (hf : fs.opened fd = some f)
    (hbase : fs.base f whence = some base) (offset : Int) :
    fs.lseek fd offset whence =
      if base + offset < 0 ∨ OFF_MAX < base + offset then (-1, fs)
      else (base + offset, fs.moveTo fd f (base + offset).toNat) := by
  unfold Files.lseek
  rw [hf]
  dsimp only
  rw [hbase]

theorem read_eq (hf : fs.opened fd = some f) (count : Nat) :
    fs.read fd count = (((fs.content f.inode).drop f.position).take count,
      fs.moveTo fd f (f.position + (((fs.content f.inode).drop f.position).take count).length)) := by
  unfold Files.read
  rw [hf]

theorem splice_length [Inhabited α] (c data : List α) : splice c c.length data = c ++ data := by
  unfold splice
  rw [Nat.sub_self, List.replicate_zero, List.append_nil, List.take_length,
    List.drop_eq_nil_of_le (by omega), List.append_nil]

/-- A write through a descriptor that appends. -/
theorem write_append [Inhabited α] [DecidableEq Inode] (hf : fs.opened fd = some f)
    (happend : f.append = true) (data : List α) :
    (fs.write fd data).content f.inode = fs.content f.inode ++ data ∧
      ∃ position, (fs.write fd data).opened fd = some { f with position := position } := by
  unfold Files.write
  rw [hf]
  refine ⟨?_, _, moveTo_opened ..⟩
  dsimp only
  rw [happend, if_pos rfl, Function.update_self, splice_length]

/-- A write at the end of the file. -/
theorem write_at_end [Inhabited α] [DecidableEq Inode] (hf : fs.opened fd = some f)
    (hend : f.position = (fs.content f.inode).length) (data : List α) :
    (fs.write fd data).content f.inode = fs.content f.inode ++ data ∧
      (fs.write fd data).opened fd = some { f with position := f.position + data.length } ∧
      (fs.write fd data).lookup = fs.lookup := by
  have hposition : (if f.append = true then (fs.content f.inode).length else f.position) =
      f.position := by
    rw [← hend, ite_self]
  unfold Files.write
  rw [hf]
  dsimp only
  rw [hposition]
  refine ⟨?_, moveTo_opened .., rfl⟩
  rw [Function.update_self, hend, splice_length]

theorem open_opened [DecidableEq Inode] (fs : Files Path Inode α) (i : Inode) (fd : Int)
    (readable append truncate : Bool) :
    (fs.open i fd readable append truncate).opened fd = some ⟨i, 0, readable, append⟩ :=
  Function.update_self ..

theorem open_content [DecidableEq Inode] (fs : Files Path Inode α) (i : Inode) (fd : Int)
    (readable append truncate : Bool) :
    (fs.open i fd readable append truncate).content i = if truncate then [] else fs.content i := by
  unfold Files.open
  cases truncate with
  | false => rfl
  | true => exact Function.update_self ..

end Posix

import Ps2Client.Ps2link.PosixHost
import Ps2Client.Posix.Proofs.FilesProofs

/-!
# Proofs: POSIX hosts
-/

namespace Ps2link

open CMemory Network Utility Posix

theorem fileHost_read {fs : HostFiles} {fd : Int} {f : OpenFile Nat} (size : Nat)
    (hf : fs.opened fd = some f) (hread : f.readable = true) :
    fileHost.call (.read fd size) fs = (some (fs.read fd size).1, (fs.read fd size).2) := by
  simp only [fileHost, hf, hread, if_true]
  rfl

theorem fileHost_write {fs : HostFiles} {fd : Int} {f : OpenFile Nat} (data : List Byte)
    (hf : fs.opened fd = some f) :
    fileHost.call (.write fd data) fs = ((data.length : Int), fs.write fd data) := by
  simp only [fileHost, hf]
  rfl

theorem fileHost_open {fs : HostFiles} {path : List Byte} {i : Nat} (flags mode : Word)
    (hpath : fs.lookup path = some i) :
    fileHost.call (.open path flags mode) fs =
      if fs.opened 3 ≠ none then ((-1 : Int), fs) else ((3 : Int), HostFiles.open fs i flags 3) := by
  simp only [fileHost, hpath]
  rfl

theorem fileHost_posix : PosixHost fileHost id where
  lseek offset whence hf := ⟨rfl, rfl⟩
  read size hf hread := by
    have hrun := fileHost_read size hf hread
    refine ⟨size, Nat.le_refl size, .inl, congrArg Prod.fst hrun, congrArg Prod.snd hrun⟩
  write data hf := by
    have hrun := fileHost_write data hf
    refine .inr ⟨data.length, Nat.le_refl _, congrArg Prod.fst hrun, ?_⟩
    rw [List.take_length]
    exact congrArg Prod.snd hrun
  «open» := by
    intro fs path i flags mode hpath _
    rw [id_eq] at hpath
    have hrun := fileHost_open flags mode hpath
    by_cases hfree : fs.opened 3 ≠ none
    · rw [if_pos hfree] at hrun
      exact .inl (congrArg Prod.fst hrun)
    · rw [if_neg hfree] at hrun
      exact .inr ⟨3, by decide, congrArg Prod.fst hrun, congrArg Prod.snd hrun⟩
  close fd fs := rfl
  stat path fs := rfl
  malloc size fs := rfl
  uninit size fs := rfl
  timeMs fs := rfl

end Ps2link

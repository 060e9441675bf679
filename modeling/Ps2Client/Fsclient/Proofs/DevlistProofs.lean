import Ps2Client.CMemory.Proofs.BoundedProofs
import Ps2Client.Fsclient.Devlist
import Ps2Client.Fsclient.Proofs.CompleteProofs

/-!
# Proofs: `fsclient_devlist`
-/

namespace Fsclient

open CMemory Network Ps2netfs
open Ps2link (Host HostFiles fileHost)

/-! ## The loop -/

/-- The comparisons read a name that has a terminator to its end at most. -/
theorem describe_of_mem {table : List (String × String)} (htable : ∀ d ∈ table, 0 ∉ literal d.1)
    {temp : List Byte} (htemp : 0 ∈ temp) : ∃ line, describe table temp = some line := by
  induction table with
  | nil =>
    rw [describe, string?_eq, if_pos htemp]
    exact ⟨_, rfl⟩
  | cons d table ih =>
    obtain ⟨line, hline⟩ := ih fun d' hd' => htable d' (List.mem_cons_of_mem _ hd')
    rw [describe, strcmp?_eq htemp (htable d List.mem_cons_self)]
    by_cases hname : cstr temp = literal d.1
    · rw [decide_eq_true hname]
      exact ⟨_, rfl⟩
    · rw [decide_eq_false hname]
      exact ⟨line, hline⟩

theorem descriptions_noNull : ∀ d ∈ descriptions, 0 ∉ literal d.1 := by decide

/-- A step from a name with a terminator goes on behind it. -/
theorem devlistLoop_of_mem {temp : List Byte} (htemp : 0 ∈ temp) (steps : Nat) :
    ∃ line, devlistLoop (steps + 1) temp =
      (devlistLoop steps (temp.drop (strlen temp + 1))).map ((cstr temp, line) :: ·) := by
  obtain ⟨line, hline⟩ := describe_of_mem descriptions_noNull htemp
  have htake : cstr temp = temp.take (strlen temp) :=
    List.prefix_iff_eq_take.mp (cstr_isPrefix temp)
  refine ⟨line, ?_⟩
  rw [devlistLoop, hline, strlen?_eq, if_pos htemp, htake]
  show (devlistLoop steps (temp.drop (strlen temp + 1))).bind _ = _
  cases devlistLoop steps (temp.drop (strlen temp + 1)) <;> rfl

/-- A step from a name without a terminator leaves the buffer. -/
theorem devlistLoop_of_notMem {temp : List Byte} (htemp : 0 ∉ temp) (steps : Nat) :
    devlistLoop (steps + 1) temp = none := by
  rw [devlistLoop, strlen?_eq, if_neg htemp]
  cases describe descriptions temp <;> rfl

/-- As long as there are terminators, the loop stays in the buffer. -/
theorem devlistLoop_inside {steps : Nat} {temp : List Byte} (h : steps ≤ temp.count 0) :
    ∃ visited, devlistLoop steps temp = some visited ∧
      visited.map Prod.fst = (strings temp).take steps := by
  induction steps generalizing temp with
  | zero => exact ⟨[], rfl, rfl⟩
  | succ steps ih =>
    have htemp : 0 ∈ temp := List.count_pos_iff.mp (by omega)
    have hcount := count_of_mem htemp
    have hleft : steps ≤ (temp.drop (strlen temp + 1)).count 0 := by omega
    obtain ⟨visited, hrest, hvisited⟩ := ih hleft
    obtain ⟨line, hstep⟩ := devlistLoop_of_mem htemp steps
    refine ⟨(cstr temp, line) :: visited, ?_, ?_⟩
    · rw [hstep, hrest]
      rfl
    · rw [strings_of_mem htemp, List.take_succ_cons, ← hvisited]
      rfl

/-- With more steps than terminators, it does not. -/
theorem devlistLoop_outside {steps : Nat} {temp : List Byte} (h : temp.count 0 < steps) :
    devlistLoop steps temp = none := by
  induction steps generalizing temp with
  | zero => exact absurd h (Nat.not_lt_zero _)
  | succ steps ih =>
    by_cases htemp : 0 ∈ temp
    · have hcount := count_of_mem htemp
      obtain ⟨line, hstep⟩ := devlistLoop_of_mem htemp steps
      rw [hstep, ih (by omega)]
      rfl
    · exact devlistLoop_of_notMem htemp steps

/-! ## Any response -/

/-- The number of devices is what decides, whatever the buffer holds. -/
theorem listDevices_inside_iff (devcount : Int) (buffer : List Byte) :
    WalksInside (listDevices devcount buffer) devcount buffer ↔ devcount ≤ buffer.count 0 := by
  unfold listDevices WalksInside
  by_cases hneg : devcount < 0
  · rw [if_pos hneg, Int.toNat_of_nonpos (Int.le_of_lt hneg)]
    have hle : devcount ≤ buffer.count 0 := by omega
    exact iff_of_true ⟨_, rfl, rfl, rfl⟩ hle
  · rw [if_neg hneg]
    by_cases hle : devcount.toNat ≤ buffer.count 0
    · obtain ⟨visited, hloop, hvisited⟩ := devlistLoop_inside hle
      rw [hloop]
      refine iff_of_true ⟨_, rfl, hvisited, ?_⟩ (by omega)
      show (visited.map Prod.fst).length = _
      rw [hvisited, List.length_take, strings_length, Nat.min_eq_left hle]
    · rw [devlistLoop_outside (Nat.lt_of_not_le hle)]
      refine iff_of_false ?_ (by omega)
      rintro ⟨r, hrun, -⟩
      cases hrun

variable {σ : Type} (e : Endian) (h : Host σ)

/-- What `fsclient_devlist` makes of a response. -/
theorem devlist_answer {w : World σ} {a : Answer} {rest : List Byte} (ha : a.IsTo listing)
    (hw : w.sock.Writable) (hin : w.sock.incoming = a.bytes ++ rest) :
    (devlist e h w).1 = listDevices a.result (peek a.response 14 256) := by
  obtain ⟨s', hcall, -⟩ := call_answer e (c := listing) id ha
    (h.uninit (6 + sizeof listing.fields) w.host).1 hw hin
  unfold devlist command
  dsimp only
  rw [hcall]
  rfl

/-- The reads stay in the buffer, and find as many names as the server says there are, exactly when
it says no more than there are terminators. -/
theorem devlist_inside_iff {w : World σ} {a : Answer} {rest : List Byte} (ha : a.IsTo listing)
    (hw : w.sock.Writable) (hin : w.sock.incoming = a.bytes ++ rest) :
    WalksInside (devlist e h w).1 a.result (peek a.response 14 256) ↔
      a.result ≤ (peek a.response 14 256).count 0 := by
  rw [devlist_answer e h ha hw hin]
  exact listDevices_inside_iff _ _

/-- A response with the result `k` and the buffer `names`. -/
def devices (k : Word) (names : List Byte) : Answer :=
  ⟨be32 COMMAND_DEVLIST ++ be16 270 ++ (be32 k ++ (be32 k ++ names)), []⟩

theorem devices_isTo (k : Word) {names : List Byte} (hnames : names.length = 256) :
    (devices k names).IsTo listing := by
  refine ⟨?_, rfl⟩
  have hlength : (devices k names).response.length = 14 + names.length := by
    simp only [devices, List.length_append]
    show 4 + 2 + (4 + (4 + names.length)) = _
    omega
  rw [hlength, hnames]
  rfl

theorem devices_result (k : Word) (names : List Byte) : (devices k names).result = k.toInt :=
  congrArg BitVec.toInt (net32_be32 k rfl)

theorem devices_names (k : Word) {names : List Byte} (hnames : names.length = 256) :
    peek (devices k names).response 14 256 = names := by
  have hpeek := peek_append_left (be32 COMMAND_DEVLIST ++ be16 270 ++ (be32 k ++ be32 k)) [] hnames
  rw [List.append_nil, List.append_assoc, List.append_assoc (be32 k)] at hpeek
  exact hpeek

/-- A host and a connection on which a response comes in. -/
def devicesWorld (k : Word) (names : List Byte) : World HostFiles where
  host := ⟨fun _ => none, fun _ => [], fun _ => none⟩
  sock := .receiving ((devices k names).bytes ++ [])

/-- Two names, and the server says so. -/
theorem devlist_inside_two :
    let names := literal "rom" ++ 0 :: (literal "mass" ++ List.replicate 248 0)
    WalksInside (devlist .little fileHost (devicesWorld 2 names)).1 (devices 2 names).result
        (peek (devices 2 names).response 14 256) ↔
      (devices 2 names).result ≤ (peek (devices 2 names).response 14 256).count 0 := by
  intro names
  have hnames : names.length = 256 := by
    rw [List.length_append, List.length_cons, List.length_append, List.length_replicate]
    rfl
  exact devlist_inside_iff .little fileHost (w := devicesWorld 2 names) (devices_isTo 2 hnames)
    List.not_mem_nil (incoming_receiving _)

/-- One name, which has no terminator in the buffer. -/
theorem devlist_leaves_buffer :
    let names := List.replicate 256 (ascii 'a')
    ¬ WalksInside (devlist .little fileHost (devicesWorld 1 names)).1 (devices 1 names).result
      (peek (devices 1 names).response 14 256) := by
  intro names
  have hnames : names.length = 256 := List.length_replicate
  have hnull : 0 ∉ names := fun hmem => absurd (List.eq_of_mem_replicate hmem) (by decide)
  rw [devlist_answer .little fileHost (w := devicesWorld 1 names) (devices_isTo 1 hnames)
    List.not_mem_nil (incoming_receiving _), listDevices_inside_iff, devices_result,
    devices_names 1 hnames, List.count_eq_zero_of_not_mem hnull]
  decide

end Fsclient

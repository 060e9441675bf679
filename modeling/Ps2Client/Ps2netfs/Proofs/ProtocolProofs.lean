import Ps2Client.CMemory.Proofs.StructProofs
import Ps2Client.Ps2netfs.Protocol

/-!
# Proofs: the packets of ps2netfs and the documented protocol
-/

namespace Ps2netfs

open CMemory

variable (e : Endian)

/-! ## What follows the packet -/

theorem net32_append_left {a : List Byte} (b : List Byte) {off : Nat} (hoff : off + 4 ≤ a.length) :
    net32 (a ++ b) off = net32 a off :=
  net32_congr fun i hi => byteAt_append_left a b (by omega)

theorem peek_append_inside {a : List Byte} (b : List Byte) {off n : Nat}
    (hoff : off + n ≤ a.length) : peek (a ++ b) off n = peek a off n := by
  refine List.map_congr_left fun i hi => ?_
  exact byteAt_append_left a b (by have := List.mem_range.mp hi; omega)

theorem packet_fields_length (c : Command) (stack : List Byte) :
    (c.packet e stack).length = 6 + sizeof c.fields := packet_length ..

section

variable {c : Command} (pre post : List Field) {off : Nat} (stack rest : List Byte)

/-- A word of the packet. -/
theorem net32_word {w : Word} (hfields : c.fields = pre ++ .word w :: post)
    (hoff : 6 + sizeof pre = off) : net32 (c.packet e stack ++ rest) off = w := by
  rw [net32_append_left]
  · rw [Command.packet, hfields]
    exact net32_packet_word e c.number pre w post _ hoff
  · rw [packet_fields_length, hfields, sizeof_append, sizeof_cons, Field.size]
    omega

/-- A string of the packet. -/
theorem textAt_text {s : CStr} (hfields : c.fields = pre ++ .text (some s) :: post)
    (hs : s.length ≤ 255) (hoff : 6 + sizeof pre = off) :
    textAt (c.packet e stack ++ rest) off = s := by
  have hbytes : cstr (peek (c.packet e stack ++ rest) off 256) = s.bytes := by
    rw [peek_append_inside]
    · rw [Command.packet, hfields]
      exact cstr_packet_text e c.number pre s post _ hs hoff
    · rw [packet_fields_length, hfields, sizeof_append, sizeof_cons, Field.size]
      omega
  cases s
  exact (CStr.mk.injEq ..).mpr hbytes

theorem net32_number : net32 (c.packet e stack ++ rest) 0 = c.number := by
  rw [net32_append_left]
  · exact net32_packet_number ..
  · rw [packet_fields_length]
    omega

/-- The two fields of most packets. -/
theorem flags_and_text {flags : Word} {s : CStr} (hfields : c.fields = [.word flags, .text (some s)])
    (hs : s.length ≤ 255) :
    net32 (c.packet e stack ++ rest) 6 = flags ∧ textAt (c.packet e stack ++ rest) 10 = s :=
  ⟨net32_word e [] _ stack rest hfields rfl, textAt_text e [_] _ stack rest hfields hs rfl⟩

theorem three_words {u v w : Word} (hfields : c.fields = [.word u, .word v, .word w]) :
    net32 (c.packet e stack ++ rest) 6 = u ∧ net32 (c.packet e stack ++ rest) 10 = v ∧
      net32 (c.packet e stack ++ rest) 14 = w :=
  ⟨net32_word e [] _ stack rest hfields rfl, net32_word e [_] _ stack rest hfields rfl,
    net32_word e [_, _] _ stack rest hfields rfl⟩

theorem two_words {v w : Word} (hfields : c.fields = [.word v, .word w]) :
    net32 (c.packet e stack ++ rest) 6 = v ∧ net32 (c.packet e stack ++ rest) 10 = w :=
  ⟨net32_word e [] _ stack rest hfields rfl, net32_word e [_] _ stack rest hfields rfl⟩

end

/-! ## Decoding -/

/-- The number decides how a packet is read. -/
theorem decodeRequest_packet (c : Command) (stack rest : List Byte) :
    decodeRequest (c.packet e stack ++ rest) = decodeAs c.number (c.packet e stack ++ rest) := by
  rw [decodeRequest, net32_number]

/-- A packet with a descriptor. -/
theorem decode_word {c : Command} {w : Word} (stack rest : List Byte) (received : Word → Received)
    (hfields : c.fields = [.word w])
    (hnumber : ∀ stream, decodeAs c.number stream = some (received (net32 stream 6))) :
    decodeRequest (c.packet e stack ++ rest) = some (received w) := by
  have hw : net32 (c.packet e stack ++ rest) 6 = w := net32_word e [] _ stack rest hfields rfl
  rw [decodeRequest_packet, hnumber, hw]

/-- A packet with flags and a string. -/
theorem decode_flags_text {c : Command} {flags : Word} {s : CStr} (stack rest : List Byte)
    (received : Word → CStr → Received) (hfields : c.fields = [.word flags, .text (some s)])
    (hs : s.length ≤ 255)
    (hnumber : ∀ stream, decodeAs c.number stream =
      some (received (net32 stream 6) (textAt stream 10))) :
    decodeRequest (c.packet e stack ++ rest) = some (received flags s) := by
  obtain ⟨hflags, htext⟩ := flags_and_text e stack rest hfields hs
  rw [decodeRequest_packet, hnumber, hflags, htext]

/-- Every command with a number of its own is received as it was meant. -/
theorem decode_command {c : Command} (hfits : c.Fits) (hnumber : c.misnumbered = false)
    (stack rest : List Byte) :
    decodeRequest (c.packet e stack ++ (c.data ++ rest)) = c.meant := by
  cases c with
  | «open» s flags =>
    obtain ⟨t, rfl, ht⟩ := hfits s (List.mem_singleton_self s)
    exact decode_flags_text e stack _ .open rfl ht fun _ => rfl
  | close fd => exact decode_word e stack _ .close rfl fun _ => rfl
  | read fd size =>
    obtain ⟨hfd, hsize⟩ := two_words (c := .read fd size) e stack ([] ++ rest) rfl
    rw [decodeRequest_packet]
    show some (Received.read (net32 _ 6) (net32 _ 10)) = some (.read fd size)
    rw [show Command.data (.read fd size) = [] from rfl, hfd, hsize]
  | write fd size buffer =>
    let data := peek buffer 0 size.toInt.toNat
    obtain ⟨hfd, hsize⟩ := two_words (c := .write fd size buffer) e stack (data ++ rest) rfl
    rw [decodeRequest_packet]
    show some (Received.write (net32 _ 6) (net32 _ 10) (peek _ 14 (net32 _ 10).toInt.toNat)) =
      some (.write fd size data)
    rw [show Command.data (.write fd size buffer) = data from rfl, hfd, hsize]
    have hlen : (Command.packet e (.write fd size buffer) stack).length = 14 :=
      packet_fields_length ..
    have hdata := peek_append_left (Command.packet e (.write fd size buffer) stack) rest
      (show data.length = size.toInt.toNat from peek_length ..)
    rw [hlen] at hdata
    rw [hdata]
  | lseek fd offset whence =>
    obtain ⟨hfd, hoffset, hwhence⟩ :=
      three_words (c := .lseek fd offset whence) e stack ([] ++ rest) rfl
    rw [decodeRequest_packet]
    show some (Received.lseek (net32 _ 6) (net32 _ 10) (net32 _ 14)) = some (.lseek fd offset whence)
    rw [show Command.data (.lseek fd offset whence) = [] from rfl, hfd, hoffset, hwhence]
  | delete s flags =>
    obtain ⟨t, rfl, ht⟩ := hfits s (List.mem_singleton_self s)
    exact decode_flags_text e stack _ .delete rfl ht fun _ => rfl
  | mkdir s flags =>
    obtain ⟨t, rfl, ht⟩ := hfits s (List.mem_singleton_self s)
    exact decode_flags_text e stack _ .mkdir rfl ht fun _ => rfl
  | rmdir s flags =>
    obtain ⟨t, rfl, ht⟩ := hfits s (List.mem_singleton_self s)
    exact decode_flags_text e stack _ .rmdir rfl ht fun _ => rfl
  | dopen s flags =>
    obtain ⟨t, rfl, ht⟩ := hfits s (List.mem_singleton_self s)
    exact decode_flags_text e stack _ .dopen rfl ht fun _ => rfl
  | dclose dd => exact decode_word e stack _ .dclose rfl fun _ => rfl
  | dread dd => exact decode_word e stack _ .dread rfl fun _ => rfl
  | sync | mount | umount => cases hnumber
  | devlist s flags =>
    obtain ⟨t, rfl, ht⟩ := hfits s (List.mem_singleton_self s)
    exact decode_flags_text e stack _ .devlist rfl ht fun _ => rfl

/-- A command with the number of another is received as that one. -/
theorem decode_misnumbered {c : Command} (hfits : c.Fits) (hnumber : c.misnumbered = true)
    (stack rest : List Byte) :
    decodeRequest (c.packet e stack ++ rest) ≠ c.meant := by
  rw [decodeRequest_packet]
  cases c with
  | sync s flags =>
    obtain ⟨t, rfl, -⟩ := hfits s (List.mem_singleton_self s)
    show some (Received.read _ _) ≠ some (.sync ..)
    exact nofun
  | mount device fsname flags argv argc =>
    obtain ⟨d, rfl, -⟩ := hfits device (by simp [Command.strings])
    obtain ⟨f, rfl, -⟩ := hfits fsname (by simp [Command.strings])
    obtain ⟨a, rfl, -⟩ := hfits argv (by simp [Command.strings])
    show some (Received.write _ _ _) ≠ some (.mount ..)
    exact nofun
  | umount s flags =>
    obtain ⟨t, rfl, -⟩ := hfits s (List.mem_singleton_self s)
    show some (Received.lseek _ _ _) ≠ some (.umount ..)
    exact nofun
  | _ => cases hnumber

theorem sizeof_fields_le (c : Command) : sizeof c.fields ≤ 776 := by
  cases c <;> simp [Command.fields, Field.size]

/-- The length field is the length of the packet. -/
theorem length_field (c : Command) (stack : List Byte) :
    (net16 (c.packet e stack) 4).toNat = (c.packet e stack).length := by
  have hsize := sizeof_fields_le c
  rw [packet_fields_length, Command.packet, net16_packet_length, BitVec.toNat_ofNat]
  exact Nat.mod_eq_of_lt (by omega)

theorem Command.Fits.not_refused {c : Command} (hfits : c.Fits) (hnumber : c.misnumbered = true) :
    ¬ c.Refused := by
  cases c with
  | sync | mount | umount => exact id
  | _ => cases hnumber

/-- A receiver that follows the document recovers exactly the commands that have a number of their
own. -/
theorem undone_iff (c : Command) (hfits : c.Fits) : c.Undone e ↔ c.misnumbered = false := by
  constructor
  · intro hundone
    by_contra hnumber
    rw [Bool.not_eq_false] at hnumber
    have hdecoded := (hundone [] [] (hfits.not_refused hnumber)).1
    exact decode_misnumbered e hfits hnumber [] _ hdecoded
  · intro hnumber stack rest _
    exact ⟨decode_command e hfits hnumber stack rest, length_field e c stack⟩

/-- A path of one byte. -/
def pathX : CStr := ⟨[ascii 'x'], by decide⟩

theorem undone_iff_open :
    (Command.open (some pathX) 0x0103).Undone .little ↔
      (Command.open (some pathX) 0x0103).misnumbered = false :=
  undone_iff .little (.open (some pathX) 0x0103) fun s hs =>
    ⟨pathX, List.mem_singleton.mp hs, by decide⟩

/-- A request to sync is received as one to read. -/
theorem not_undone_sync : ¬ (Command.sync (some pathX) 0).Undone .little := by
  intro hundone
  have hfits : (Command.sync (some pathX) 0).Fits := fun s hs =>
    ⟨pathX, List.mem_singleton.mp hs, by decide⟩
  exact decode_misnumbered .little hfits rfl [] _ (hundone [] [] id).1

end Ps2netfs

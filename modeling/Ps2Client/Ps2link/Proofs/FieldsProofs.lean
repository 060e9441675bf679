import Ps2Client.Ps2link.Fields
import Ps2Client.Ps2link.Proofs.CoverageProofs
import Ps2Client.Ps2link.Proofs.WriteProofs

/-!
# Proofs: the fields of a request reach the host calls
-/

namespace Ps2link

open CMemory Network Utility

/-! ## Decoding undoes packing -/

/-- A word that is stored in network byte order and loaded in the byte order of the host. -/
def unconverted (e : Endian) (w : Word) : Word :=
  match e with
  | .big => w
  | .little => swap32 w

/-- The operation with the values of the fields. The mode of `mkdir` is not converted. -/
def Fields.operation (e : Endian) : Fields → Operation
  | .open flags path => .open (hostPath path.path) (fixFlags flags)
  | .close fd => .close fd
  | .read fd size => .read fd size
  | .write fd size => .write fd size
  | .opendir _ path => .opendir (hostPath path.path)
  | .closedir dd => .closedir dd
  | .readdir dd => .readdir dd
  | .remove path => .remove (hostPath path.path)
  | .mkdir mode path => .mkdir (hostPath path.path) (unconverted e mode)
  | .rmdir path => .rmdir (hostPath path.path)
  | .getstat path => .getstat (hostPath path.path)

theorem Fields.payload_length (f : Fields) : f.payload.length ≤ 512 := by
  cases f <;> simp only [Fields.payload, List.length_append, be32_length, PathField.length_eq] <;>
    decide

/-- The first integer of the payload, -/
theorem net32_front (w : Word) (number : Word) (more before : List Byte) :
    net32 (inBuffer number (be32 w ++ more) before) 6 = w :=
  @net32_inBuffer_be32 number w [] more 0 before rfl

/-- the same without its conversion, -/
theorem load32_front (e : Endian) (w : Word) (number : Word) (more before : List Byte) :
    load32 e (inBuffer number (be32 w ++ more) before) 6 = unconverted e w := by
  cases e with
  | big => exact net32_front w number more before
  | little => rw [load32_little, net32_front]; rfl

/-- a path that is first in the payload, -/
theorem pathArgument_front (p : PathField) (number : Word) (before : List Byte) :
    pathArgument (inBuffer number p.bytes before) 6 = hostPath p.path :=
  @pathArgument_inBuffer number p.bytes before 0 p.terminated

/-- and one that is second. -/
theorem pathArgument_second (w : Word) (p : PathField) (number : Word) (before : List Byte) :
    pathArgument (inBuffer number (be32 w ++ p.bytes) before) 10 = hostPath p.path := by
  have hdrop : (be32 w ++ p.bytes).drop 4 = p.bytes := List.drop_left' (be32_length w)
  have hmem : 0 ∈ (be32 w ++ p.bytes).drop 4 := by
    rw [hdrop]
    exact p.terminated
  have hpath := pathArgument_inBuffer number before hmem
  rw [hdrop] at hpath
  exact hpath

theorem net32_second (v w : Word) (number : Word) (before : List Byte) :
    net32 (inBuffer number (be32 v ++ be32 w) before) 10 = w := by
  have hfield := @net32_inBuffer_be32 number w (be32 v) [] 4 before (be32_length v)
  rwa [List.append_nil] at hfield

theorem net32_only (w : Word) (number : Word) (before : List Byte) :
    net32 (inBuffer number (be32 w) before) 6 = w := by
  have hfield := net32_front w number [] before
  rwa [List.append_nil] at hfield

/-- Decoding a packed request gives back its fields. -/
theorem decode_fields (e : Endian) (f : Fields) (number : Word) (before : List Byte) :
    f.kind.decode e (inBuffer number f.payload before) = f.operation e := by
  cases f with
  | «open» flags path =>
    exact congrArg₂ Operation.open (pathArgument_second flags path number before)
      (congrArg fixFlags (net32_front flags number path.bytes before))
  | close fd => exact congrArg Operation.close (net32_only fd number before)
  | read fd size =>
    exact congrArg₂ Operation.read (net32_front fd number (be32 size) before)
      (net32_second fd size number before)
  | write fd size =>
    exact congrArg₂ Operation.write (net32_front fd number (be32 size) before)
      (net32_second fd size number before)
  | opendir flags path =>
    exact congrArg Operation.opendir (pathArgument_second flags path number before)
  | closedir dd => exact congrArg Operation.closedir (net32_only dd number before)
  | readdir dd => exact congrArg Operation.readdir (net32_only dd number before)
  | remove path => exact congrArg Operation.remove (pathArgument_front path number before)
  | mkdir mode path =>
    exact congrArg₂ Operation.mkdir (pathArgument_second mode path number before)
      (load32_front e mode number path.bytes before)
  | rmdir path => exact congrArg Operation.rmdir (pathArgument_front path number before)
  | getstat path => exact congrArg Operation.getstat (pathArgument_front path number before)

/-! ## The calls of each operation -/

section

variable {σ : Type} (h : Host σ) (e : Endian)

/-- A `read` calls `malloc` for what does not fit its buffer, and `read` if there is memory. -/
theorem performRead_delivered (fd size : Word) (s : Client σ) (rest : List Byte) :
    ∃ calls, (performRead h e fd size s).2.calls = s.calls ++ calls ∧
      (Fields.read fd size).Delivered h (e = .big) s rest calls := by
  unfold performRead Fields.Delivered
  dsimp only
  by_cases hbig : 65536 < size.toNat
  · simp only [if_pos hbig]
    refine ⟨_, ?_, rfl⟩
    cases (h.call (.malloc size.toNat) s.host).1 with
    | none => rfl
    | some block =>
      exact List.append_assoc s.calls [.malloc size.toNat] [.read fd.toInt size.toNat]
  · simp only [if_neg hbig]
    exact ⟨_, rfl, rfl⟩

/-- `write` is called with the data taken off the stream, if they are all there. -/
theorem receiveAndWrite_delivered (buffer : List Byte) (fd size : Word) (s : Client σ) :
    (receiveAndWrite h e buffer fd size s).2.calls =
      s.calls ++ writeCalls fd size buffer s.sock.incoming := by
  unfold writeCalls
  split
  · rename_i hneg
    rw [receiveAndWrite_negative h e buffer fd s hneg]
    rfl
  · exact receiveAndWrite_calls h e buffer fd s (by omega)

/-- What is in a buffer does not matter to a write whose size is an `int`. -/
theorem writeCalls_small (fd : Word) {size : Word} (buffer rest : List Byte)
    (hsmall : ¬ 65536 < size.toNat) : writeCalls fd size buffer rest = writeCalls fd size [] rest := by
  have hint : ¬ 2 ^ 31 ≤ size.toNat := by omega
  simp only [writeCalls, if_neg hint]

/-- A `write` calls `malloc` for what does not fit its buffer, and `write` if there is memory. -/
theorem performWrite_delivered (fd size : Word) (s : Client σ) :
    ∃ calls, (performWrite h e fd size s).2.calls = s.calls ++ calls ∧
      (Fields.write fd size).Delivered h (e = .big) s s.sock.incoming calls := by
  unfold performWrite Fields.Delivered
  dsimp only
  by_cases hbig : 65536 < size.toNat
  · simp only [if_pos hbig]
    refine ⟨_, ?_, rfl⟩
    cases (h.call (.malloc size.toNat) s.host).1 with
    | none => rfl
    | some block =>
      dsimp only
      rw [receiveAndWrite_delivered]
      exact List.append_assoc s.calls [.malloc size.toNat] _
  · simp only [if_neg hbig]
    refine ⟨_, ?_, rfl⟩
    rw [receiveAndWrite_delivered, writeCalls_small fd _ _ hbig]

/-- `opendir` is called when there is memory for the copy of the path. -/
theorem opendirAt_calls (i : Fin 10) (path : List Byte) (s : Client σ) :
    (opendirAt h e i path s).2.calls = s.calls ++ .malloc (path.length + 1) ::
      match (h.call (.malloc (path.length + 1)) s.host).1 with
      | none => []
      | some _ => [.opendir path] := by
  unfold opendirAt
  dsimp only
  cases (h.call (.malloc (path.length + 1)) s.host).1 with
  | none => rfl
  | some block => exact List.append_assoc s.calls [.malloc (path.length + 1)] [.opendir path]

/-- An `opendir` looks up its path first, and goes on for a directory and a free entry. -/
theorem performOpendir_delivered (flags : Word) (path : PathField) (s : Client σ)
    (rest : List Byte) :
    ∃ calls, (performOpendir h e (hostPath path.path) s).2.calls = s.calls ++ calls ∧
      (Fields.opendir flags path).Delivered h (e = .big) s rest calls := by
  unfold performOpendir Fields.Delivered
  dsimp only
  refine ⟨_, ?_, rfl⟩
  by_cases hdir : (h.call (.stat (hostPath path.path)) s.host).1.any (fun st => isDir st.mode) = true
  · rw [if_pos hdir]
    cases hfree : freeSlot s.dd with
    | none => rw [if_neg (fun hboth => hboth.2 rfl)]; rfl
    | some i =>
      dsimp only
      rw [opendirAt_calls, if_pos ⟨hdir, nofun⟩]
      exact List.append_assoc s.calls [.stat (hostPath path.path)] _
  · rw [if_neg hdir, if_neg (fun hboth => hdir hboth.1)]
    rfl

/-- `stat` is called for the full name, if that fits. -/
theorem readdirEntry_calls (tname name : List Byte) (s : Client σ) :
    (readdirEntry h e tname name s).2.calls =
      s.calls ++ if tname.length < 512 then [.stat tname] else [] := by
  unfold readdirEntry
  by_cases hlong : 512 ≤ tname.length
  · rw [if_pos hlong, if_neg (by omega), List.append_nil]
  · rw [if_neg hlong, if_pos (by omega)]
    dsimp only
    split <;> rfl

/-- A `readdir` reads an entry of an open directory, and then calls `stat`. -/
theorem performReaddir_delivered (dd : Word) (s : Client σ) (rest : List Byte) :
    ∃ calls, (performReaddir h e dd s).2.calls = s.calls ++ calls ∧
      (Fields.readdir dd).Delivered h (e = .big) s rest calls := by
  unfold performReaddir Fields.Delivered
  dsimp only
  cases openSlot s.dd dd with
  | none => exact ⟨[], (List.append_nil _).symm, rfl⟩
  | some slot =>
    obtain ⟨i, dir⟩ := slot
    dsimp only
    refine ⟨_, ?_, rfl⟩
    cases (h.call (.readdir dir) s.host).1 with
    | none => rfl
    | some name =>
      dsimp only
      rw [readdirEntry_calls]
      exact List.append_assoc s.calls [.readdir dir] _

/-- The `open` of a path other than that of the handshake. -/
theorem performOpen_delivered (flags : Word) (path : PathField) (s : Client σ) (rest : List Byte)
    (hping : hostPath path.path ≠ PING_PATHNAME) :
    ∃ calls, (performOpen h e (hostPath path.path) (fixFlags flags) s).2.calls = s.calls ++ calls ∧
      (Fields.open flags path).Delivered h (e = .big) s rest calls := by
  unfold performOpen Fields.Delivered
  rw [if_neg hping]
  dsimp only
  refine ⟨_, ?_, rfl⟩
  split
  · exact List.append_assoc s.calls [.stat _] [.open _ _ _]
  · rfl

/-- Every operation but the `open` of the handshake makes its calls with its own arguments. -/
theorem operation_delivered (f : Fields) (s : Client σ) (hping : ¬ f.Handshake) :
    ∃ calls, ((f.operation e).perform h e s).2.calls = s.calls ++ calls ∧
      f.Delivered h (e = .big) s s.sock.incoming calls := by
  cases f with
  | «open» flags path =>
    exact performOpen_delivered h e flags path s _ fun heq => hping ⟨flags, path, rfl, heq⟩
  | close fd =>
    refine ⟨[.close fd.toInt], ?_, rfl⟩
    simp only [Fields.operation, Operation.perform, performClose]
    split <;> rfl
  | read fd size => exact performRead_delivered h e fd size s _
  | write fd size => exact performWrite_delivered h e fd size s
  | opendir flags path => exact performOpendir_delivered h e flags path s _
  | closedir dd =>
    simp only [Fields.operation, Operation.perform, performClosedir, Fields.Delivered]
    cases openSlot s.dd dd with
    | none => exact ⟨[], (List.append_nil _).symm, rfl⟩
    | some slot => exact ⟨[.closedir slot.2], rfl, rfl⟩
  | readdir dd => exact performReaddir_delivered h e dd s _
  | remove path => exact ⟨[.remove _], rfl, rfl⟩
  | mkdir mode path =>
    refine ⟨[.mkdir _ (unconverted e mode)], rfl, unconverted e mode, rfl, ?_⟩
    rintro rfl
    rfl
  | rmdir path => exact ⟨[.rmdir _], rfl, rfl⟩
  | getstat path =>
    refine ⟨[.stat (hostPath path.path)], ?_, rfl⟩
    simp only [Fields.operation, Operation.perform, performGetstat]
    split
    · rfl
    · split <;> rfl

/-- The `open` of the handshake goes to the null device. -/
theorem handshake_calls {f : Fields} (hping : f.Handshake) (s : Client σ) :
    ((f.operation e).perform h e s).2.calls = s.calls ++ [.open NULL_DEVICE O_WRONLY 0] := by
  obtain ⟨flags, path, rfl, hpath⟩ := hping
  simp only [Fields.operation, Operation.perform, performOpen, if_pos hpath]
  rfl

/-- The calls of the turn on a packed request are those of its operation. -/
theorem requestTurn_fields (f : Fields) {s : Client σ} {rest : List Byte} (before : List Byte)
    (hin : s.sock.incoming = f.bytes ++ rest) :
    ∃ a, arrivedBytes a = rest ∧ (requestTurn h e before s).client.calls =
      ((f.operation e).perform h e (s.arrive a)).2.calls := by
  have hin' : s.sock.incoming = be32 f.kind.request ++
      (be16 (.ofNat 16 (6 + f.payload.length)) ++ (f.payload ++ rest)) := by
    rw [hin, Fields.bytes]
    simp only [List.append_assoc]
  obtain ⟨a, ha, hturn⟩ := requestTurn_packet h e f.payload_length hin'
  refine ⟨a, ha, ?_⟩
  have hrun := dispatch_operation h e (s.arrive a)
    (net32_inBuffer_number f.kind.request f.payload before)
  rw [decode_fields] at hrun
  rw [hturn, serveTurn_client, apply_ite Client.calls]
  have hact : ∀ s : Client σ, (setActivity h s).calls = s.calls := fun s => rfl
  rw [hact, ite_self, hrun]

/-- The fields of every packed request reach the host calls on every host, but for the `open` of the
handshake, which goes to the null device, and the mode of `mkdir` on a little-endian host. -/
theorem fields_delivered (f : Fields) (s : Client σ) (rest before : List Byte)
    (hin : s.sock.incoming = f.bytes ++ rest) :
    ∃ calls, (requestTurn h e before s).client.calls = s.calls ++ calls ∧
      (f.Handshake ∧ calls = [.open NULL_DEVICE O_WRONLY 0] ∨
        ¬ f.Handshake ∧ f.Delivered h (e = .big) s rest calls) := by
  obtain ⟨a, ha, hcalls⟩ := requestTurn_fields h e f before hin
  rw [hcalls]
  by_cases hping : f.Handshake
  · exact ⟨_, handshake_calls h e hping _, .inl ⟨hping, rfl⟩⟩
  · obtain ⟨calls, hrun, hdelivered⟩ := operation_delivered h e f (s.arrive a) hping
    rw [show (s.arrive a).sock.incoming = rest from ha] at hdelivered
    exact ⟨calls, hrun, .inr ⟨hping, hdelivered⟩⟩

end

/-- The path in the field is the one that was put there. -/
theorem PathField.ofPath_path {path : List Byte} (hlen : path.length < 256) (h0 : 0 ∉ path) :
    (PathField.ofPath path hlen).path = path := by
  obtain ⟨n, hn⟩ : ∃ n, 256 - path.length = n + 1 := ⟨255 - path.length, by omega⟩
  show cstr (path ++ List.replicate (256 - path.length) 0) = path
  rw [hn, List.replicate_succ]
  exact cstr_append_zero h0 _

def pathA : PathField := .ofPath [ascii 'a'] (by decide)

theorem hostPath_pathA : hostPath pathA.path = [ascii 'a'] := by
  have hpath : pathA.path = [ascii 'a'] := PathField.ofPath_path _ (by decide)
  rw [hpath]
  decide

/-- The file of the handshake. -/
def pathPing : PathField := .ofPath PING_PATHNAME (by decide)

theorem hostPath_pathPing : hostPath pathPing.path = PING_PATHNAME := by
  have hpath : pathPing.path = PING_PATHNAME := PathField.ofPath_path _ (by decide)
  rw [hpath]
  decide

/-- A request to write three bytes, with another byte behind them. -/
theorem fields_delivered_write :
    let f := Fields.write 3 3
    let s : Client Unit := .initial () (.receiving (f.bytes ++ [7, 8, 9, 10]))
    ∃ calls, (requestTurn failingHost .little [] s).client.calls = s.calls ++ calls ∧
      (f.Handshake ∧ calls = [.open NULL_DEVICE O_WRONLY 0] ∨
        ¬ f.Handshake ∧ f.Delivered failingHost (Endian.little = .big) s [7, 8, 9, 10] calls) :=
  fields_delivered failingHost .little _ _ _ [] (incoming_receiving _)

/-- The `open` of the handshake does not open the path it names, and the mode of `mkdir` is not the
one sent on a little-endian host. -/
theorem fields_not_delivered :
    (let f := Fields.open 2 pathPing
     let s : Client Unit := .initial () (.receiving (f.bytes ++ []))
     ¬ ∃ calls, (requestTurn failingHost .big [] s).client.calls = s.calls ++ calls ∧
        f.Delivered failingHost True s [] calls) ∧
    (let f := Fields.mkdir 0o755 pathA
     let s : Client Unit := .initial () (.receiving (f.bytes ++ []))
     ¬ ∃ calls, (requestTurn failingHost .little [] s).client.calls = s.calls ++ calls ∧
        f.Delivered failingHost True s [] calls) := by
  constructor
  · intro f s
    rintro ⟨calls, hcalls, hdel : calls = _⟩
    obtain ⟨a, -, hturn⟩ := requestTurn_fields (s := s) failingHost .big f [] (incoming_receiving _)
    have hopen := handshake_calls failingHost .big (f := f) ⟨2, _, rfl, hostPath_pathPing⟩ (s.arrive a)
    rw [hturn, hopen] at hcalls
    cases (List.append_cancel_left hcalls).trans hdel
  · intro f s
    rintro ⟨calls, hcalls, mode, hdel, hmode⟩
    obtain ⟨a, -, hturn⟩ := requestTurn_fields (s := s) failingHost .little f []
      (incoming_receiving _)
    rw [hturn] at hcalls
    have hmkdir := (List.cons.inj (hcalls.trans hdel)).1
    rw [hmode trivial, HostCall.mkdir.injEq] at hmkdir
    exact absurd hmkdir.2 (by decide)

end Ps2link

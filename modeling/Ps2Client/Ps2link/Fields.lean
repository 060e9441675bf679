import Ps2Client.Ps2link.Coverage

/-!
# Requests by their fields

A request as the ps2 builds it, from the values of the fields of its packed struct in network byte
order, and the host calls that are to be made for it.
-/

namespace Ps2link

open CMemory Network Utility

/-- A `char pathname[256]` with a terminator. -/
structure PathField where
  bytes : List Byte
  length_eq : bytes.length = 256
  terminated : 0 ∈ bytes

def PathField.path (p : PathField) : List Byte := cstr p.bytes

/-- A path of less than 256 bytes in its field, with zeros behind it. -/
def PathField.ofPath (path : List Byte) (hlen : path.length < 256) : PathField where
  bytes := path ++ List.replicate (256 - path.length) 0
  length_eq := by
    rw [List.length_append, List.length_replicate]
    omega
  terminated := by
    refine List.mem_append_right _ (List.mem_replicate.mpr ⟨by omega, rfl⟩)

/-- The fields of a request. The `flags` of `opendir` are not used. -/
inductive Fields where
  | «open» (flags : Word) (path : PathField)
  | close (fd : Word)
  | read (fd size : Word)
  | write (fd size : Word)
  | opendir (flags : Word) (path : PathField)
  | closedir (dd : Word)
  | readdir (dd : Word)
  | remove (path : PathField)
  | mkdir (mode : Word) (path : PathField)
  | rmdir (path : PathField)
  | getstat (path : PathField)

def Fields.kind : Fields → Kind
  | .open .. => .open
  | .close _ => .close
  | .read .. => .read
  | .write .. => .write
  | .opendir .. => .opendir
  | .closedir _ => .closedir
  | .readdir _ => .readdir
  | .remove _ => .remove
  | .mkdir .. => .mkdir
  | .rmdir _ => .rmdir
  | .getstat _ => .getstat

/-- The packet after the header. -/
def Fields.payload : Fields → List Byte
  | .open flags path | .opendir flags path => be32 flags ++ path.bytes
  | .close fd => be32 fd
  | .read fd size | .write fd size => be32 fd ++ be32 size
  | .closedir dd | .readdir dd => be32 dd
  | .remove path | .rmdir path | .getstat path => path.bytes
  | .mkdir mode path => be32 mode ++ path.bytes

def Fields.bytes (f : Fields) : List Byte :=
  be32 f.kind.request ++ (be16 (.ofNat 16 (6 + f.payload.length)) ++ f.payload)

/-- The `open` of the handshake. -/
def Fields.Handshake (f : Fields) : Prop :=
  ∃ flags path, f = .open flags path ∧ hostPath path.path = PING_PATHNAME

variable {σ : Type} (h : Host σ)

/-- The write of the data of a `write` into a buffer: the first bytes of the stream `rest`, when all
of them come in. A size that is no `int` receives nothing, and writes the buffer as it is. -/
def writeCalls (fd size : Word) (buffer rest : List Byte) : List HostCall :=
  if 2 ^ 31 ≤ size.toNat then [.write fd.toInt (peek (poke buffer 0 []) 0 size.toNat)]
  else if size.toNat ≤ rest.length then [.write fd.toInt (rest.take size.toNat)]
  else []

/-- The calls that a request makes in the state `s`, with the stream `rest` behind its packet: each
call that the results of the ones before it lead to, with the values of the fields as its arguments.
The mode of `mkdir` has to be the one sent only if `modeToo`. -/
def Fields.Delivered (f : Fields) (modeToo : Prop) (s : Client σ) (rest : List Byte)
    (calls : List HostCall) : Prop :=
  match f with
  | .open flags path =>
    let p := hostPath path.path
    calls = .stat p ::
      if (h.call (.stat p) s.host).1.any (fun st => !isDir st.mode) ∨ fixFlags flags &&& O_CREAT ≠ 0
      then [.open p (fixFlags flags) 0o644] else []
  | .close fd => calls = [.close fd.toInt]
  | .read fd size =>
    if 65536 < size.toNat then
      calls = .malloc size.toNat ::
        match (h.call (.malloc size.toNat) s.host).1 with
        | none => []
        | some _ => [.read fd.toInt size.toNat]
    else calls = [.read fd.toInt size.toNat]
  | .write fd size =>
    if 65536 < size.toNat then
      calls = .malloc size.toNat ::
        match (h.call (.malloc size.toNat) s.host).1 with
        | none => []
        | some block => writeCalls fd size block rest
    else calls = writeCalls fd size [] rest
  | .opendir _ path =>
    let p := hostPath path.path
    let (stats, host) := h.call (.stat p) s.host
    calls = .stat p ::
      if stats.any (fun st => isDir st.mode) ∧ freeSlot s.dd ≠ none then
        .malloc (p.length + 1) ::
          match (h.call (.malloc (p.length + 1)) host).1 with
          | none => []
          | some _ => [.opendir p]
      else []
  | .closedir dd =>
    match openSlot s.dd dd with
    | none => calls = []
    | some (_, dir) => calls = [.closedir dir]
  | .readdir dd =>
    match openSlot s.dd dd with
    | none => calls = []
    | some (i, dir) => calls = .readdir dir ::
      match (h.call (.readdir dir) s.host).1 with
      | none => []
      | some name =>
        let tname := (s.dd i).pathname.getD [] ++ ascii '/' :: name
        if tname.length < 512 then [.stat tname] else []
  | .remove path => calls = [.remove (hostPath path.path)]
  | .mkdir mode path =>
    ∃ mode', calls = [.mkdir (hostPath path.path) mode'] ∧ (modeToo → mode' = mode)
  | .rmdir path => calls = [.rmdir (hostPath path.path)]
  | .getstat path => calls = [.stat (hostPath path.path)]

end Ps2link

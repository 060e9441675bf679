import Ps2Client.Ps2link.Responses

/-!
# The request handlers and the request thread

Each `ps2link_request_*` function overlays a packed struct on the packet buffer and reads its
arguments from there. Here a handler is split at that point: `request…` reads the arguments out of
the packet, with the conversions the source applies to them and the changes it makes to the packet
in place, and `perform…` makes the host calls and sends the response.

The packet buffer is a local variable of the request thread, and is reused from request to request:
what a packet does not overwrite is still there from earlier ones, or was never written. It is
modelled as the memory from the start of the buffer on, so that a path without a terminator is read
on into whatever lies behind the buffer.
-/

namespace Ps2link

open CMemory Network Utility

variable {σ : Type} (h : Host σ) (e : Endian)

/-- `PS2LINK_PING_PATHNAME`: `ps2client.ping` -/
def PING_PATHNAME : List Byte :=
  ['p', 's', '2', 'c', 'l', 'i', 'e', 'n', 't', '.', 'p', 'i', 'n', 'g'].map ascii

/-- `PS2LINK_NULL_DEVICE`: `/dev/null` -/
def NULL_DEVICE : List Byte := ['/', 'd', 'e', 'v', '/', 'n', 'u', 'l', 'l'].map ascii

/-! ## Host calls and responses -/

def performOpen (path : List Byte) (flags : Word) (s : Client σ) : Int × Client σ :=
  -- The handshake's register dump goes nowhere.
  if path = PING_PATHNAME then
    let (result, s) := s.call h (.open NULL_DEVICE O_WRONLY 0)
    responseOpen e result { s with pingFd := result }
  else
    let (stats, s) := s.call h (.stat path)
    if stats.any (fun st => !isDir st.mode) ∨ flags &&& O_CREAT ≠ 0 then
      let (result, s) := s.call h (.open path flags 0o644)
      responseOpen e result s
    else responseOpen e (-1) s

def performClose (fd : Word) (s : Client σ) : Int × Client σ :=
  let (result, s) := s.call h (.close fd.toInt)
  -- The handshake's register dump is complete.
  let s := if 0 ≤ s.pingFd ∧ fd.toInt = s.pingFd then
      { s with pingFd := -1, pingAnswered := true } else s
  responseClose e result s

/-- The result of `read` as the handler keeps it, an `int`. -/
def readResult (got : Option (List Byte)) : Int :=
  match got with
  | some data => toInt32 data.length
  | none => -1

/-- The body of both branches of `ps2link_request_read`: read into the buffer, send the response and
the response data. -/
def readAndSend (fd size : Word) (s : Client σ) : Int × Client σ :=
  let (got, s) := s.call h (.read fd.toInt size.toNat)
  let (_, s) := responseRead e (readResult got) (readResult got) s
  let (_, s) := s.send (got.getD []) (readResult got)
  (0, s)

def performRead (fd size : Word) (s : Client σ) : Int × Client σ :=
  if 65536 < size.toNat then
    let (bigbuffer, s) := s.call h (.malloc size.toNat)
    match bigbuffer with
    | none =>
      let (_, s) := responseRead e (-1) (-1) s
      (-1, s)
    | some _ => readAndSend h e fd size s
  else readAndSend h e fd size s

/-- The body of both branches of `ps2link_request_write`: receive into the buffer, write from it, and
send the response. The size is an `int` for `network_receive_all` and unsigned for `write`. -/
def receiveAndWrite (buffer : List Byte) (fd size : Word) (s : Client σ) : Int × Client σ :=
  let (received, data, s) := s.receiveAll size.toInt
  if received < 0 then (-1, s) else
    let (result, s) := s.call h (.write fd.toInt (peek (poke buffer 0 data) 0 size.toNat))
    let (_, s) := responseWrite e (toInt32 result) s
    (0, s)

def performWrite (fd size : Word) (s : Client σ) : Int × Client σ :=
  if 65536 < size.toNat then
    let (bigbuffer, s) := s.call h (.malloc size.toNat)
    match bigbuffer with
    | none => (-1, s)
    | some block => receiveAndWrite h e block fd size s
  else
    let (buffer, s) := s.uninit h 65536
    receiveAndWrite h e buffer fd size s

/-- The arguments are what `ntohl` returns, unsigned: `offset` is widened to a 64-bit `off_t` with
zeros, and the result is cut to an `int`. -/
def performLseek (fd offset whence : Word) (s : Client σ) : Int × Client σ :=
  let (result, s) := s.call h (.lseek fd.toInt offset.toNat whence.toInt)
  responseLseek e (toInt32 result) s

/-- The first free entry of `ps2link_dd`. -/
def freeSlot (dd : Fin 10 → Slot) : Option (Fin 10) :=
  (List.finRange 10).find? fun i => (dd i).dir == none

/-- The second half of `ps2link_request_opendir`, with the entry `ps2link_dd[i]`. The source does
not check the allocation of the copy of the path. -/
def opendirAt (i : Fin 10) (path : List Byte) (s : Client σ) : Int × Client σ :=
  let (copy, s) := s.call h (.malloc (path.length + 1))
  match copy with
  | none => (0, { s with crashed := true })
  | some _ =>
    let s := { s with dd := Function.update s.dd i { s.dd i with pathname := some path } }
    let (dir, s) := s.call h (.opendir path)
    let s := { s with dd := Function.update s.dd i { s.dd i with dir := dir } }
    responseOpendir e i s

def performOpendir (path : List Byte) (s : Client σ) : Int × Client σ :=
  let (stats, s) := s.call h (.stat path)
  if stats.any (fun st => isDir st.mode) then
    match freeSlot s.dd with
    | some i => opendirAt h e i path s
    | none => responseOpendir e (-1) s
  else responseOpendir e (-1) s

/-- The entry `ps2link_dd[dd]` and its directory stream, unless `dd` is out of range or closed. -/
def openSlot (table : Fin 10 → Slot) (dd : Word) : Option (Fin 10 × Nat) :=
  if hdd : dd.toNat < 10 then (table ⟨dd.toNat, hdd⟩).dir.map fun dir => (⟨dd.toNat, hdd⟩, dir)
  else none

def performClosedir (dd : Word) (s : Client σ) : Int × Client σ :=
  match openSlot s.dd dd with
  | none => responseClosedir e (-1) s
  | some (i, dir) =>
    let (result, s) := s.call h (.closedir dir)
    responseClosedir e result { s with dd := Function.update s.dd i ⟨none, none⟩ }

/-- The conversion of `st_mode`. -/
def convertMode (mode : Word) : Word :=
  (mode &&& 0x07) ||| (if isDir mode then 0x20 else 0) ||| (if isLnk mode then 0x08 else 0) |||
    (if isReg mode then 0x10 else 0)

/-- The conversion of a time into an array of 8 bytes, of which the first and the last are not
assigned. -/
def convertTime (array : List Byte) (t : Tm) : List Byte :=
  [byteAt array 0, .ofInt 8 t.sec, .ofInt 8 t.min, .ofInt 8 t.hour, .ofInt 8 t.mday,
    .ofInt 8 t.mon + 1, .ofInt 8 t.year, byteAt array 7]

/-- The converted attributes of an entry. There are none when `localtime` gives a null pointer,
which the source dereferences. -/
def convertStat (ctime atime mtime : List Byte) (st : Stat) : Option Entry := do
  let c ← h.localtime st.ctime
  let a ← h.localtime st.atime
  let m ← h.localtime st.mtime
  return {
    mode := convertMode st.mode, attr := 0, size := st.size.setWidth 32
    ctime := some (convertTime ctime c), atime := some (convertTime atime a)
    mtime := some (convertTime mtime m), hisize := 0 }

/-- An entry of which nothing is known. -/
def noEntry : Entry := ⟨0, 0, 0, none, none, none, 0⟩

/-- The `struct stat` after the call of `stat`, which leaves it as it was when it fails. -/
def statOrStack (path : List Byte) (s : Client σ) : Stat × Client σ :=
  let (stack, s) := s.uninitStat h
  let (stats, s) := s.call h (.stat path)
  (stats.getD stack, s)

/-- The second half of `ps2link_request_readdir`, with the full name `tname` of the entry `name`. The
name is printed into an array of 512 bytes. -/
def readdirEntry (tname name : List Byte) (s : Client σ) : Int × Client σ :=
  if 512 ≤ tname.length then (0, { s with crashed := true }) else
    let (stats, s) := statOrStack h tname s
    let (ctime, s) := s.uninit h 8
    let (atime, s) := s.uninit h 8
    let (mtime, s) := s.uninit h 8
    match convertStat h ctime atime mtime stats with
    | some d => responseReaddir h e 1 d (some name) s
    | none => (0, { s with crashed := true })

def performReaddir (dd : Word) (s : Client σ) : Int × Client σ :=
  match openSlot s.dd dd with
  | none => responseReaddir h e (-1) noEntry none s
  | some (i, dir) =>
    let (dirent, s) := s.call h (.readdir dir)
    match dirent with
    | none => responseReaddir h e 0 noEntry none s
    | some name => readdirEntry h e ((s.dd i).pathname.getD [] ++ ascii '/' :: name) name s

def performRemove (path : List Byte) (s : Client σ) : Int × Client σ :=
  let (result, s) := s.call h (.remove path)
  responseRemove e result s

def performMkdir (path : List Byte) (mode : Word) (s : Client σ) : Int × Client σ :=
  let (result, s) := s.call h (.mkdir path mode)
  responseMkdir e result s

def performRmdir (path : List Byte) (s : Client σ) : Int × Client σ :=
  let (result, s) := s.call h (.rmdir path)
  responseRmdir e result s

def performGetstat (path : List Byte) (s : Client σ) : Int × Client σ :=
  let zero := List.replicate 8 0
  let (stats, s) := s.call h (.stat path)
  match stats with
  | none =>
    responseGetstat h e (-1) ⟨0, 0, 0, some zero, some zero, some zero, 0⟩ s
  | some st =>
    match convertStat h zero zero zero st with
    | some d => responseGetstat h e 0 d s
    | none => (0, { s with crashed := true })

/-! ## Arguments of a request -/

/-- `fix_pathname` on the path at `off`. -/
def fixPathAt (m : List Byte) (off : Nat) : List Byte := peek m 0 off ++ fixPathname (m.drop off)

/-- An argument that is read through `ntohl`. -/
def argument (m : List Byte) (off : Nat) : Word := ntohl e (load32 e m off)

def requestOpen (packet : List Byte) (s : Client σ) : List Byte × Int × Client σ :=
  let packet := fixPathAt packet 10
  let flags := fixFlags (argument e packet 6)
  (store32 e packet 6 flags, performOpen h e (cstr (packet.drop 10)) flags s)

def requestClose (packet : List Byte) (s : Client σ) : List Byte × Int × Client σ :=
  (packet, performClose h e (argument e packet 6) s)

def requestRead (packet : List Byte) (s : Client σ) : List Byte × Int × Client σ :=
  (packet, performRead h e (argument e packet 6) (argument e packet 10) s)

def requestWrite (packet : List Byte) (s : Client σ) : List Byte × Int × Client σ :=
  (packet, performWrite h e (argument e packet 6) (argument e packet 10) s)

def requestLseek (packet : List Byte) (s : Client σ) : List Byte × Int × Client σ :=
  (packet, performLseek h e (argument e packet 6) (argument e packet 10) (argument e packet 14) s)

def requestOpendir (packet : List Byte) (s : Client σ) : List Byte × Int × Client σ :=
  let packet := fixPathAt packet 10
  (packet, performOpendir h e (cstr (packet.drop 10)) s)

def requestClosedir (packet : List Byte) (s : Client σ) : List Byte × Int × Client σ :=
  (packet, performClosedir h e (argument e packet 6) s)

def requestReaddir (packet : List Byte) (s : Client σ) : List Byte × Int × Client σ :=
  (packet, performReaddir h e (argument e packet 6) s)

def requestRemove (packet : List Byte) (s : Client σ) : List Byte × Int × Client σ :=
  let packet := fixPathAt packet 6
  (packet, performRemove h e (cstr (packet.drop 6)) s)

/-- The mode is passed on as it lies in the packet, without `ntohl`. -/
def requestMkdir (packet : List Byte) (s : Client σ) : List Byte × Int × Client σ :=
  let packet := fixPathAt packet 10
  (packet, performMkdir h e (cstr (packet.drop 10)) (load32 e packet 6) s)

def requestRmdir (packet : List Byte) (s : Client σ) : List Byte × Int × Client σ :=
  let packet := fixPathAt packet 6
  (packet, performRmdir h e (cstr (packet.drop 6)) s)

def requestGetstat (packet : List Byte) (s : Client σ) : List Byte × Int × Client σ :=
  let packet := fixPathAt packet 6
  (packet, performGetstat h e (cstr (packet.drop 6)) s)

/-! ## The request thread -/

/-- The dispatch on the packet number. The result of a handler is not looked at. -/
def dispatch (packet : List Byte) (s : Client σ) : List Byte × Int × Client σ :=
  let number := ntohl e (load32 e packet 0)
  if number = REQUEST_OPEN then requestOpen h e packet s else
  if number = REQUEST_CLOSE then requestClose h e packet s else
  if number = REQUEST_READ then requestRead h e packet s else
  if number = REQUEST_WRITE then requestWrite h e packet s else
  if number = REQUEST_LSEEK then requestLseek h e packet s else
  if number = REQUEST_OPENDIR then requestOpendir h e packet s else
  if number = REQUEST_CLOSEDIR then requestClosedir h e packet s else
  if number = REQUEST_READDIR then requestReaddir h e packet s else
  if number = REQUEST_REMOVE then requestRemove h e packet s else
  if number = REQUEST_MKDIR then requestMkdir h e packet s else
  if number = REQUEST_RMDIR then requestRmdir h e packet s else
  if number = REQUEST_GETSTAT then requestGetstat h e packet s else (packet, 0, s)

/-- How a turn of the loop ends: with the next one, with a `break`, or with the end of the
process. -/
inductive Turn (σ : Type) where
  | next (packet : List Byte) (s : Client σ)
  | stop (s : Client σ)
  | crash (s : Client σ)

/-- The end of a turn: perform the requested action and reset the timeout counter. -/
def serveTurn (packet : List Byte) (s : Client σ) : Turn σ :=
  let (packet, _, s) := dispatch h e packet s
  if s.crashed then .crash s else .next packet (setActivity h s)

/-- The turn from the point where `length` bytes of the packet are still to be read. -/
def bodyTurn (length : Nat) (packet : List Byte) (s : Client σ) : Turn σ :=
  let (received, body, s) := s.receiveAll length
  if received < 0 then .stop s else serveTurn h e (poke packet 6 body) s

/-- The turn from the point where the header has been read. -/
def headerTurn (packet : List Byte) (s : Client σ) : Turn σ :=
  let length := (ntohs e (load16 e packet 4)).toNat
  if length < 6 ∨ 512 < length - 6 then .stop s else bodyTurn h e (length - 6) packet s

/-- One turn of the loop of `ps2link_thread_request`. -/
def requestTurn (packet : List Byte) (s : Client σ) : Turn σ :=
  let (received, header, s) := s.receiveAll 6
  if received < 0 then .stop s else headerTurn h e (poke packet 0 header) s

/-- The loop of `ps2link_thread_request`, for at most `fuel` turns. -/
def requestLoop : Nat → List Byte → Client σ → Client σ
  | 0, _, s => s
  | fuel + 1, packet, s =>
    match requestTurn h e packet s with
    | .next packet s => requestLoop fuel packet s
    | .stop s => { s with lost := true }
    | .crash s => s

/-- `ps2link_thread_request`. A turn that does not end the loop takes a header off the incoming
stream, so that there are never more turns than bytes. -/
def threadRequest (packet : List Byte) (s : Client σ) : Client σ :=
  requestLoop h e (s.sock.incoming.length + 1) packet s

end Ps2link

import Ps2Client.Ps2link.Host

/-!
# Request and response packets of ps2link

The packet numbers, and the `ps2link_response_*` functions. A response is a packed struct on the
stack: its bytes are the bytes of its fields, one after the other, and a field that is not assigned
keeps what was on the stack.
-/

namespace Ps2link

open CMemory Network

/-! ## Packet numbers -/

def REQUEST_OPEN : Word := 0xBABE0111
def REQUEST_CLOSE : Word := 0xBABE0121
def REQUEST_READ : Word := 0xBABE0131
def REQUEST_WRITE : Word := 0xBABE0141
def REQUEST_LSEEK : Word := 0xBABE0151
def REQUEST_OPENDIR : Word := 0xBABE0161
def REQUEST_CLOSEDIR : Word := 0xBABE0171
def REQUEST_READDIR : Word := 0xBABE0181
def REQUEST_REMOVE : Word := 0xBABE0191
def REQUEST_MKDIR : Word := 0xBABE01A1
def REQUEST_RMDIR : Word := 0xBABE01B1
def REQUEST_GETSTAT : Word := 0xBABE01C1

def RESPONSE_OPEN : Word := 0xBABE0112
def RESPONSE_CLOSE : Word := 0xBABE0122
def RESPONSE_READ : Word := 0xBABE0132
def RESPONSE_WRITE : Word := 0xBABE0142
def RESPONSE_LSEEK : Word := 0xBABE0152
def RESPONSE_OPENDIR : Word := 0xBABE0162
def RESPONSE_CLOSEDIR : Word := 0xBABE0172
def RESPONSE_READDIR : Word := 0xBABE0182
def RESPONSE_REMOVE : Word := 0xBABE0192
def RESPONSE_MKDIR : Word := 0xBABE01A2
def RESPONSE_RMDIR : Word := 0xBABE01B2
def RESPONSE_GETSTAT : Word := 0xBABE01C2

/-! ## Responses -/

variable {σ : Type} (h : Host σ) (e : Endian)

/-- The first two fields of every packet, `number` and `length`. -/
def headerBytes (number : Word) (length : Half) : List Byte :=
  host32 e (htonl e number) ++ host16 e (htons e length)

/-- An `int` field that is assigned `htonl(value)`. -/
def intBytes (value : Int) : List Byte := host32 e (htonl e (.ofInt 32 value))

/-- A response with the only field `int result`. -/
def responseResult (number : Word) (result : Int) (s : Client σ) : Int × Client σ :=
  s.send (headerBytes e number 10 ++ intBytes e result) 10

def responseOpen (result : Int) (s : Client σ) : Int × Client σ :=
  responseResult e RESPONSE_OPEN result s

def responseClose (result : Int) (s : Client σ) : Int × Client σ :=
  responseResult e RESPONSE_CLOSE result s

def responseRead (result size : Int) (s : Client σ) : Int × Client σ :=
  s.send (headerBytes e RESPONSE_READ 14 ++ intBytes e result ++ intBytes e size) 14

def responseWrite (result : Int) (s : Client σ) : Int × Client σ :=
  responseResult e RESPONSE_WRITE result s

def responseLseek (result : Int) (s : Client σ) : Int × Client σ :=
  responseResult e RESPONSE_LSEEK result s

def responseOpendir (result : Int) (s : Client σ) : Int × Client σ :=
  responseResult e RESPONSE_OPENDIR result s

def responseClosedir (result : Int) (s : Client σ) : Int × Client σ :=
  responseResult e RESPONSE_CLOSEDIR result s

def responseRemove (result : Int) (s : Client σ) : Int × Client σ :=
  responseResult e RESPONSE_REMOVE result s

def responseMkdir (result : Int) (s : Client σ) : Int × Client σ :=
  responseResult e RESPONSE_MKDIR result s

def responseRmdir (result : Int) (s : Client σ) : Int × Client σ :=
  responseResult e RESPONSE_RMDIR result s

/-- What `readdir` and `getstat` tell of an entry. A time is a pointer to 8 bytes, or null. -/
structure Entry where
  mode : Word
  attr : Word
  size : Word
  ctime : Option (List Byte)
  atime : Option (List Byte)
  mtime : Option (List Byte)
  hisize : Word
  deriving DecidableEq, Repr

/-- An 8-byte field at `off` that is filled from a pointer unless it is null. -/
def timeField (stack : List Byte) (off : Nat) (time : Option (List Byte)) : List Byte :=
  match time with
  | some t => peek t 0 8
  | none => peek stack off 8

/-- The fields that the responses to `readdir` and `getstat` have in common, on the stack `stack`. -/
def entryBytes (stack : List Byte) (result : Int) (d : Entry) : List Byte :=
  intBytes e result ++ host32 e (htonl e d.mode) ++ host32 e (htonl e d.attr) ++
    host32 e (htonl e d.size) ++ timeField stack 22 d.ctime ++ timeField stack 30 d.atime ++
    timeField stack 38 d.mtime ++ host32 e (htonl e d.hisize)

def responseReaddir (result : Int) (d : Entry) (name : Option (List Byte)) (s : Client σ) :
    Int × Client σ :=
  let (stack, s) := s.uninit h 306
  let nameField :=
    match name with
    | some name => snprintf (peek stack 50 256) 256 name
    | none => peek stack 50 256
  s.send (headerBytes e RESPONSE_READDIR 306 ++ entryBytes e stack result d ++ nameField) 306

def responseGetstat (result : Int) (d : Entry) (s : Client σ) : Int × Client σ :=
  let (stack, s) := s.uninit h 50
  s.send (headerBytes e RESPONSE_GETSTAT 50 ++ entryBytes e stack result d) 50

end Ps2link

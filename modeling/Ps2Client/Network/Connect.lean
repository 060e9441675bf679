import Ps2Client.CMemory.Bytes
import Ps2Client.History.Past

/-!
# Opening a socket

`network_connect`, its variant with a timeout, and `network_listen`. The kernel answers every call as
it likes and may take any time for it; its clock never goes back. The calls that were made are kept
with what they returned.
-/

namespace Network

open CMemory

inductive SocketType where
  | stream
  | dgram
  deriving DecidableEq, Repr

/-- A call of the kernel. Addresses are numbers, and a null pointer for one is a negative number; so
is a failure, and the negative result of `connect` has the number of the error. `getFlags` and
`setFlags` are the two uses of `fcntl`, and `soError` returns the error it asks for. -/
inductive NetCall where
  | gethostbyname (hostname : List Byte)
  | socket (type : SocketType)
  | noDelay (sock : Int)
  | getFlags (sock : Int)
  | setFlags (sock : Int) (flags : Word)
  | connect (sock address port : Int)
  | select (sock sec usec : Int)
  | soError (sock : Int)
  | bind (sock port : Int)
  | createThread (sock : Int)
  | cancelThread (sock : Int)
  | close (sock : Int)
  deriving DecidableEq, Repr

/-- A kernel with states in `σ`, and with a clock that is monotone. -/
structure Kernel (σ : Type) where
  call : NetCall → σ → Int × σ
  timeMs : σ → Int × σ
  /-- The time in a state. -/
  now : σ → Int
  call_now : ∀ c st, now st ≤ now (call c st).2
  timeMs_now : ∀ st, now st ≤ (timeMs st).1 ∧ (timeMs st).1 ≤ now (timeMs st).2

/-- A call that was made, and its result. -/
structure NetEvent where
  call : NetCall
  result : Int
  deriving DecidableEq, Repr

/-- The kernel's state, and the calls so far. -/
structure Net (σ : Type) where
  kernel : σ
  calls : List NetEvent

variable {σ : Type} (k : Kernel σ)

def Kernel.perform (c : NetCall) (n : Net σ) : Int × Net σ :=
  ((k.call c n.kernel).1, ⟨(k.call c n.kernel).2, n.calls ++ [⟨c, (k.call c n.kernel).1⟩]⟩)

/-- `time_ms` -/
def Kernel.readClock (n : Net σ) : Int × Net σ :=
  ((k.timeMs n.kernel).1, { n with kernel := (k.timeMs n.kernel).2 })

/-! ## The functions -/

def O_NONBLOCK : Word := 0x800
def EINPROGRESS : Int := 115

def networkSetBlocking (sock : Int) (blocking : Bool) (n : Net σ) : Int × Net σ :=
  let f := k.perform (.getFlags sock) n
  if f.1 < 0 then (-1, f.2) else
    let flags : Word := .ofInt 32 f.1
    k.perform
      (.setFlags sock (if blocking then flags &&& ~~~O_NONBLOCK else flags ||| O_NONBLOCK)) f.2

def networkDisconnect (sock : Int) (n : Net σ) : Int × Net σ :=
  let c := k.perform (.close sock) n
  (if c.1 < 0 then -1 else 0, c.2)

/-- A return with the result `r` after the socket was closed. -/
def giveUp (sock r : Int) (n : Net σ) : Int × Net σ := (r, (networkDisconnect k sock n).2)

/-- A `connect` that does not wait has returned `r < 0`: whether it succeeds before the timeout. -/
def awaitConnect (sock timeoutMs r : Int) (n : Net σ) : Bool × Net σ :=
  if r ≠ -EINPROGRESS then (false, n) else
    let s := k.perform (.select sock (timeoutMs.tdiv 1000) (timeoutMs.tmod 1000 * 1000)) n
    if s.1 ≤ 0 then (false, s.2) else
      let o := k.perform (.soError sock) s.2
      (o.1 == 0, o.2)

/-- The end of `network_connect_timeout` with a timeout. -/
def connectWithin (sock address port timeoutMs : Int) (n : Net σ) : Int × Net σ :=
  let b := networkSetBlocking k sock false n
  if b.1 < 0 then giveUp k sock (-1) b.2 else
    let c := k.perform (.connect sock address port) b.2
    let w := if c.1 < 0 then awaitConnect k sock timeoutMs c.1 c.2 else (true, c.2)
    if w.1 = false then giveUp k sock (-2) w.2 else
      let u := networkSetBlocking k sock true w.2
      if u.1 < 0 then giveUp k sock (-1) u.2 else (sock, u.2)

/-- The end of `network_connect_timeout` without one. -/
def connectWaiting (sock address port : Int) (n : Net σ) : Int × Net σ :=
  let c := k.perform (.connect sock address port) n
  if c.1 < 0 then giveUp k sock (-2) c.2 else (sock, c.2)

def networkConnectTimeout (hostname : List Byte) (port : Int) (type : SocketType) (timeoutMs : Int)
    (n : Net σ) : Int × Net σ :=
  let host := k.perform (.gethostbyname hostname) n
  if host.1 < 0 then (-1, host.2) else
    let s := k.perform (.socket type) host.2
    if s.1 < 0 then (-1, s.2) else
      let n := if type = .stream then (k.perform (.noDelay s.1) s.2).2 else s.2
      if timeoutMs < 0 then connectWaiting k s.1 host.1 port n
      else connectWithin k s.1 host.1 port timeoutMs n

def networkConnect (hostname : List Byte) (port : Int) (type : SocketType) (n : Net σ) :
    Int × Net σ :=
  networkConnectTimeout k hostname port type (-1) n

def networkListen (port : Int) (type : SocketType) (n : Net σ) : Int × Net σ :=
  let s := k.perform (.socket type) n
  if s.1 < 0 then (-1, s.2) else
    let b := k.perform (.bind s.1 port) s.2
    if b.1 < 0 then giveUp k s.1 (-2) b.2 else (s.1, b.2)

/-! ## Waiting forever -/

/-- The sockets after one more call, with their types and flags. -/
def track (sockets : Int → Option (SocketType × Word)) (ev : NetEvent) :
    Int → Option (SocketType × Word) :=
  match ev with
  | ⟨.socket type, sock⟩ => if 0 ≤ sock then Function.update sockets sock (some (type, 0)) else sockets
  | ⟨.setFlags sock flags, r⟩ =>
    if 0 ≤ r then Function.update sockets sock ((sockets sock).map fun s => (s.1, flags)) else sockets
  | ⟨.close sock, _⟩ => Function.update sockets sock none
  | _ => sockets

/-- The sockets that are open after some calls. -/
def openSockets (calls : List NetEvent) : Int → Option (SocketType × Word) :=
  calls.foldl track fun _ => none

/-- A `connect` of a stream socket that is not non-blocking waits as long as it takes. -/
def WaitsForever (before : List NetEvent) (ev : NetEvent) : Prop :=
  ∃ sock address port flags, ev.call = .connect sock address port ∧
    openSockets before sock = some (.stream, flags) ∧ flags &&& O_NONBLOCK = 0

/-- No call so far waits forever. -/
def Bounded (calls : List NetEvent) : Prop :=
  History.Always (fun before ev => ¬ WaitsForever before ev) calls

end Network

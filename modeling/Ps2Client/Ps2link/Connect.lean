import Ps2Client.Network.Connect
import Ps2Client.Ps2link.Mainloop

/-!
# Connecting to ps2link

`ps2link_connect` opens those of the three sockets that are asked for, and starts the threads that
serve two of them.
-/

namespace Ps2link

open CMemory Network

def EXIT_NOCONNECT : Int := 69
def EXIT_PORTBUSY : Int := 75

def CONNECT_CONSOLE : Word := 1
def CONNECT_REQUEST : Word := 2
def CONNECT_COMMAND : Word := 4

/-- The variables `console_socket`, `request_socket` and `command_socket`. -/
structure Sockets where
  console : Int := -1
  request : Int := -1
  command : Int := -1
  deriving DecidableEq, Repr

/-- What `ps2link_connect` returns and prints, and what it leaves. -/
structure Connected (σ : Type) where
  result : Int
  message : Option String
  sockets : Sockets
  net : Net σ

variable {σ : Type} (k : Kernel σ)

/-- The creation of a thread for a socket, if there is one. -/
def createThread (sock : Int) (n : Net σ) : Net σ :=
  if 0 ≤ sock then (k.perform (.createThread sock) n).2 else n

/-- Connect to the request port. -/
def connectRequest (hostname : List Byte) (timeoutMs : Int) (n : Net σ) : Int × Net σ :=
  let r := networkConnectTimeout k hostname 0x4711 .stream timeoutMs n
  if r.1 < 0 then r else (r.1, (k.perform (.noDelay r.1) r.2).2)

/-- `ps2link_connect`; the variables of the sockets were -1 before. -/
def connect (hostname : List Byte) (what : Word) (timeoutMs : Int) (n : Net σ) : Connected σ :=
  let c := if what &&& CONNECT_CONSOLE ≠ 0 then networkListen k 0x4712 .dgram n else (-1, n)
  if what &&& CONNECT_CONSOLE ≠ 0 ∧ c.1 < 0 then
    ⟨EXIT_PORTBUSY, some "Error: Could not listen on the console port (UDP 0x4712). Is another ps2client running?\n",
      { console := c.1 }, c.2⟩
  else
  let r := if what &&& CONNECT_REQUEST ≠ 0 then connectRequest k hostname timeoutMs c.2 else (-1, c.2)
  if what &&& CONNECT_REQUEST ≠ 0 ∧ r.1 < 0 then
    ⟨EXIT_NOCONNECT, some "Error: Could not connect to the ps2link server. (%s)\n",
      { console := c.1, request := r.1 }, r.2⟩
  else
  let d := if what &&& CONNECT_COMMAND ≠ 0 then networkConnect k hostname 0x4712 .dgram r.2
    else (-1, r.2)
  if what &&& CONNECT_COMMAND ≠ 0 ∧ d.1 < 0 then
    ⟨EXIT_NOCONNECT, some "Error: Could not open the command port. (%s)\n",
      { console := c.1, request := r.1, command := d.1 }, d.2⟩
  else
  -- `ps2link_set_activity` reads the clock.
  ⟨0, none, { console := c.1, request := r.1, command := d.1 },
    createThread k r.1 (createThread k c.1 (k.readClock d.2).2)⟩

/-- The end of one of the threads, if it was created. -/
def cancelThread (sock : Int) (n : Net σ) : Net σ :=
  if 0 ≤ sock then (k.perform (.cancelThread sock) n).2 else n

def closeSocket (sock : Int) (n : Net σ) : Net σ :=
  if 0 ≤ sock then (networkDisconnect k sock n).2 else n

/-- `ps2link_disconnect` -/
def disconnect (s : Sockets) (n : Net σ) : Net σ :=
  closeSocket k s.console (closeSocket k s.request (closeSocket k s.command
    (cancelThread k s.console (cancelThread k s.request n))))

end Ps2link

import Ps2Client.Network.Proofs.ConnectProofs
import Ps2Client.Ps2link.Connect

/-!
# Proofs: connecting to ps2link
-/

namespace Ps2link

open CMemory Network

variable {σ : Type} {k : Kernel σ} {P : Net σ → Prop}

theorem kept_createThread (hP : Kept k P) (sock : Int) {n : Net σ} (hn : P n) :
    P (createThread k sock n) := by
  unfold createThread
  split_ifs
  · exact hP.perform _ _ nofun hn
  · exact hn

theorem kept_connectRequest (hP : Kept k P) {timeoutMs : Int}
    (hstream : KeptByConnect k P .stream timeoutMs) (hostname : List Byte) {n : Net σ} (hn : P n) :
    P (connectRequest k hostname timeoutMs n).2 := by
  have hr := hP.networkConnectTimeout hstream hostname 0x4711 hn
  unfold connectRequest
  dsimp only
  split_ifs
  · exact hr
  · exact hP.perform _ _ nofun hr

/-- `ps2link_connect` keeps what the calls of its sockets keep. -/
theorem kept_connect (hP : Kept k P) {timeoutMs : Int} (hstream : KeptByConnect k P .stream timeoutMs)
    (hdgram : KeptByConnect k P .dgram (-1)) (hostname : List Byte) (what : Word) {n : Net σ}
    (hn : P n) : P (connect k hostname what timeoutMs n).net := by
  unfold connect
  dsimp only
  set c := if what &&& CONNECT_CONSOLE ≠ 0 then networkListen k 0x4712 .dgram n else (-1, n) with hc
  have hconsole : P c.2 := by
    rw [hc]
    split_ifs
    · exact hP.networkListen _ _ hn
    · exact hn
  set r := if what &&& CONNECT_REQUEST ≠ 0 then connectRequest k hostname timeoutMs c.2
    else (-1, c.2) with hr
  have hrequest : P r.2 := by
    rw [hr]
    split_ifs
    · exact kept_connectRequest hP hstream hostname hconsole
    · exact hconsole
  set d := if what &&& CONNECT_COMMAND ≠ 0 then networkConnect k hostname 0x4712 .dgram r.2
    else (-1, r.2) with hd
  have hcommand : P d.2 := by
    rw [hd]
    split_ifs
    · exact hP.networkConnectTimeout hdgram hostname 0x4712 hrequest
    · exact hrequest
  split_ifs
  · exact hconsole
  · exact hrequest
  · exact hcommand
  · exact kept_createThread hP _ (kept_createThread hP _ (hP.readClock _ hcommand))

theorem kept_cancelThread (hP : Kept k P) (sock : Int) {n : Net σ} (hn : P n) :
    P (cancelThread k sock n) := by
  unfold cancelThread
  split_ifs
  · exact hP.perform _ _ nofun hn
  · exact hn

theorem kept_closeSocket (hP : Kept k P) (sock : Int) {n : Net σ} (hn : P n) :
    P (closeSocket k sock n) := by
  unfold closeSocket
  split_ifs
  · exact hP.disconnect sock hn
  · exact hn

theorem kept_disconnect (hP : Kept k P) (s : Sockets) {n : Net σ} (hn : P n) :
    P (disconnect k s n) :=
  kept_closeSocket hP _ (kept_closeSocket hP _ (kept_closeSocket hP _
    (kept_cancelThread hP _ (kept_cancelThread hP _ hn))))

end Ps2link

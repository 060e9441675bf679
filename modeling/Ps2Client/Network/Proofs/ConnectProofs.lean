import Mathlib.Logic.Function.Basic
import Ps2Client.History.Proofs.PastProofs
import Ps2Client.Network.Connect

/-!
# Proofs: opening a socket
-/

namespace Network

open CMemory History

variable {σ : Type} (k : Kernel σ)

/-! ## The sockets that are open -/

theorem openSockets_perform (c : NetCall) (n : Net σ) :
    openSockets (k.perform c n).2.calls =
      track (openSockets n.calls) ⟨c, (k.perform c n).1⟩ := by
  show (n.calls ++ [_]).foldl track _ = _
  rw [List.foldl_append]
  rfl

/-- A new socket has its type and no flags. -/
theorem openSockets_socket {type : SocketType} {n : Net σ}
    (hsock : 0 ≤ (k.perform (.socket type) n).1) :
    openSockets (k.perform (.socket type) n).2.calls (k.perform (.socket type) n).1 =
      some (type, 0) := by
  rw [openSockets_perform]
  simp only [track, if_pos hsock, Function.update_self]

theorem openSockets_noDelay (sock : Int) (n : Net σ) :
    openSockets (k.perform (.noDelay sock) n).2.calls = openSockets n.calls := by
  rw [openSockets_perform]
  rfl

theorem or_nonblock (flags : Word) : (flags ||| O_NONBLOCK) &&& O_NONBLOCK ≠ 0 := by
  intro h
  have hbit := congrArg (fun w : Word => w.getLsbD 11) h
  simp [O_NONBLOCK] at hbit

/-- A socket that was made non-blocking is. -/
theorem networkSetBlocking_flags {sock : Int} {type : SocketType} {flags : Word} {n : Net σ}
    (hopen : openSockets n.calls sock = some (type, flags))
    (hok : ¬ (networkSetBlocking k sock false n).1 < 0) :
    ∃ flags', openSockets (networkSetBlocking k sock false n).2.calls sock = some (type, flags') ∧
      flags' &&& O_NONBLOCK ≠ 0 := by
  unfold networkSetBlocking at hok ⊢
  dsimp only at hok ⊢
  by_cases hget : (k.perform (.getFlags sock) n).1 < 0
  · rw [if_pos hget] at hok
    exact absurd (show (-1 : Int) < 0 by decide) hok
  · rw [if_neg hget] at hok ⊢
    have hsame : openSockets (k.perform (.getFlags sock) n).2.calls = openSockets n.calls := by
      rw [openSockets_perform]
      rfl
    refine ⟨_, ?_, or_nonblock (.ofInt 32 (k.perform (.getFlags sock) n).1)⟩
    rw [openSockets_perform, hsame]
    simp only [track]
    rw [if_pos (Int.not_lt.mp hok), Function.update_self, hopen]
    rfl

/-! ## What the calls keep -/

/-- What reading the clock and every call but `connect` keep. -/
structure Kept (P : Net σ → Prop) : Prop where
  perform : ∀ c n, (∀ sock address port, c ≠ .connect sock address port) → P n →
    P (k.perform c n).2
  readClock : ∀ n, P n → P (k.readClock n).2

variable {k} {P : Net σ → Prop}

/-- The functions make no other `connect` than of an open socket, which is non-blocking if there is
a timeout. -/
def KeptByConnect (k : Kernel σ) (P : Net σ → Prop) (type : SocketType) (timeoutMs : Int) : Prop :=
  ∀ sock address port flags n, P n → openSockets n.calls sock = some (type, flags) →
    (0 ≤ timeoutMs → flags &&& O_NONBLOCK ≠ 0) → P (k.perform (.connect sock address port) n).2

theorem Kept.setBlocking (hP : Kept k P) (sock : Int) (blocking : Bool) {n : Net σ} (hn : P n) :
    P (networkSetBlocking k sock blocking n).2 := by
  unfold networkSetBlocking
  dsimp only
  have hget := hP.perform (.getFlags sock) n nofun hn
  split_ifs
  · exact hget
  · exact hP.perform _ _ nofun hget
  · exact hP.perform _ _ nofun hget

theorem Kept.disconnect (hP : Kept k P) (sock : Int) {n : Net σ} (hn : P n) :
    P (networkDisconnect k sock n).2 := hP.perform _ _ nofun hn

theorem Kept.giveUp (hP : Kept k P) (sock r : Int) {n : Net σ} (hn : P n) :
    P (giveUp k sock r n).2 := hP.disconnect sock hn

theorem Kept.awaitConnect (hP : Kept k P) (sock timeoutMs r : Int) {n : Net σ} (hn : P n) :
    P (awaitConnect k sock timeoutMs r n).2 := by
  unfold Network.awaitConnect
  dsimp only
  have hselect := hP.perform (.select sock (timeoutMs.tdiv 1000) (timeoutMs.tmod 1000 * 1000)) n
    nofun hn
  split_ifs
  · exact hn
  · exact hselect
  · exact hP.perform _ _ nofun hselect

/-- What every call keeps, a connection within a limit keeps, -/
theorem Kept.connectWithin (hP : Kept k P) {type : SocketType} {timeoutMs : Int}
    (hconnect : KeptByConnect k P type timeoutMs) {sock address port : Int} {flags : Word}
    {n : Net σ} (hn : P n) (hopen : openSockets n.calls sock = some (type, flags)) :
    P (connectWithin k sock address port timeoutMs n).2 := by
  unfold Network.connectWithin
  dsimp only
  have hset := hP.setBlocking sock false hn
  by_cases hb : (networkSetBlocking k sock false n).1 < 0
  · rw [if_pos hb]
    exact hP.giveUp sock _ hset
  · obtain ⟨flags', hopen', hflags⟩ := networkSetBlocking_flags k hopen hb
    have hc := hconnect sock address port flags' _ hset hopen' fun _ => hflags
    rw [if_neg hb]
    set c := k.perform (.connect sock address port) (networkSetBlocking k sock false n).2
    set w := if c.1 < 0 then Network.awaitConnect k sock timeoutMs c.1 c.2 else (true, c.2) with hw
    have hwait : P w.2 := by
      rw [hw]
      split_ifs
      · exact hP.awaitConnect sock timeoutMs _ hc
      · exact hc
    split_ifs
    · exact hP.giveUp sock _ hwait
    · exact hP.giveUp sock _ (hP.setBlocking sock true hwait)
    · exact hP.setBlocking sock true hwait

/-- one without a limit, -/
theorem Kept.connectWaiting (hP : Kept k P) {type : SocketType} {timeoutMs : Int}
    (hconnect : KeptByConnect k P type timeoutMs) (htimeout : timeoutMs < 0)
    {sock address port : Int} {flags : Word} {n : Net σ} (hn : P n)
    (hopen : openSockets n.calls sock = some (type, flags)) :
    P (connectWaiting k sock address port n).2 := by
  have hc := hconnect sock address port flags n hn hopen fun h => absurd htimeout (Int.not_lt.mpr h)
  unfold Network.connectWaiting
  dsimp only
  split_ifs
  · exact hP.giveUp sock _ hc
  · exact hc

/-- and all of `network_connect_timeout`. -/
theorem Kept.networkConnectTimeout (hP : Kept k P) {type : SocketType} {timeoutMs : Int}
    (hconnect : KeptByConnect k P type timeoutMs) (hostname : List Byte) (port : Int) {n : Net σ}
    (hn : P n) : P (networkConnectTimeout k hostname port type timeoutMs n).2 := by
  unfold Network.networkConnectTimeout
  dsimp only
  have hhost := hP.perform (.gethostbyname hostname) n nofun hn
  set host := k.perform (.gethostbyname hostname) n
  have hsocket := hP.perform (.socket type) host.2 nofun hhost
  by_cases hresolved : host.1 < 0
  · rw [if_pos hresolved]
    exact hhost
  rw [if_neg hresolved]
  by_cases hsock : (k.perform (.socket type) host.2).1 < 0
  · rw [if_pos hsock]
    exact hsocket
  rw [if_neg hsock]
  have hopen := openSockets_socket k (Int.not_lt.mp hsock)
  set s := k.perform (.socket type) host.2
  set n' := if type = .stream then (k.perform (.noDelay s.1) s.2).2 else s.2 with hn'
  have hdelay : P n' ∧ openSockets n'.calls s.1 = some (type, 0) := by
    rw [hn']
    split_ifs
    · rw [openSockets_noDelay]
      exact ⟨hP.perform _ _ nofun hsocket, hopen⟩
    · exact ⟨hsocket, hopen⟩
  by_cases htimeout : timeoutMs < 0
  · rw [if_pos htimeout]
    exact hP.connectWaiting hconnect htimeout hdelay.1 hdelay.2
  · rw [if_neg htimeout]
    exact hP.connectWithin hconnect hdelay.1 hdelay.2

theorem Kept.networkListen (hP : Kept k P) (port : Int) (type : SocketType) {n : Net σ}
    (hn : P n) : P (networkListen k port type n).2 := by
  unfold Network.networkListen
  dsimp only
  have hsocket := hP.perform (.socket type) n nofun hn
  have hbind := hP.perform (.bind (k.perform (.socket type) n).1 port) _ nofun hsocket
  split_ifs
  · exact hsocket
  · exact hP.giveUp _ _ hbind
  · exact hbind

/-! ## The clock, and waiting forever -/

variable (k)

/-- The clock does not go back. -/
theorem now_kept (t : Int) : Kept k fun n => t ≤ k.now n.kernel where
  perform c n _ hn := Int.le_trans hn (k.call_now c n.kernel)
  readClock n hn := by
    obtain ⟨hbefore, hafter⟩ := k.timeMs_now n.kernel
    exact Int.le_trans hn (Int.le_trans hbefore hafter)

/-- The clock does not go back. -/
theorem now_keptByConnect (t : Int) (type : SocketType) (timeoutMs : Int) :
    KeptByConnect k (fun n => t ≤ k.now n.kernel) type timeoutMs := by
  intro sock address port flags n hn _ _
  exact Int.le_trans hn (k.call_now _ n.kernel)

/-- No call but a connection can wait forever. -/
theorem bounded_kept : Kept k fun n => Bounded n.calls where
  perform c n hc hn := by
    refine (always_snoc _ _ _).mpr ⟨hn, ?_⟩
    rintro ⟨sock, address, port, flags, hcall, -⟩
    exact hc sock address port hcall
  readClock _ hn := hn

/-- A datagram socket does not wait, and a stream socket does not with a timeout. -/
theorem bounded_keptByConnect {type : SocketType} {timeoutMs : Int}
    (h : type = .dgram ∨ 0 ≤ timeoutMs) :
    KeptByConnect k (fun n => Bounded n.calls) type timeoutMs := by
  intro sock address port flags n hn hopen hflags
  refine (always_snoc _ _ _).mpr ⟨hn, ?_⟩
  rintro ⟨sock', address', port', flags', hcall, hopen', hblocking⟩
  obtain ⟨rfl, -, -⟩ := NetCall.connect.inj hcall
  obtain ⟨htype, rfl⟩ := Prod.mk.inj (Option.some.inj (hopen.symm.trans hopen'))
  rcases h with hdgram | htimeout
  · rw [htype] at hdgram
    cases hdgram
  · exact hflags htimeout hblocking

/-- Without a timeout, a stream socket that is there waits as long as it takes. -/
theorem networkConnectTimeout_waits {hostname : List Byte} {port timeoutMs : Int} {n : Net σ}
    (htimeout : timeoutMs < 0) (hhost : 0 ≤ (k.perform (.gethostbyname hostname) n).1)
    (hsock : 0 ≤ (k.perform (.socket .stream) (k.perform (.gethostbyname hostname) n).2).1) :
    ¬ Bounded (networkConnectTimeout k hostname port .stream timeoutMs n).2.calls := by
  unfold networkConnectTimeout
  dsimp only
  rw [if_neg (Int.not_lt.mpr hhost), if_neg (Int.not_lt.mpr hsock), if_pos rfl, if_pos htimeout]
  set address := (k.perform (.gethostbyname hostname) n).1
  have hopen := openSockets_socket k hsock
  set s := k.perform (.socket .stream) (k.perform (.gethostbyname hostname) n).2
  rw [← openSockets_noDelay k s.1] at hopen
  set d := (k.perform (.noDelay s.1) s.2).2
  have hwaits : ¬ Bounded (k.perform (.connect s.1 address port) d).2.calls := by
    intro hbounded
    exact ((always_snoc _ _ _).mp hbounded).2 ⟨s.1, address, port, 0, rfl, hopen, rfl⟩
  unfold connectWaiting
  dsimp only
  split_ifs
  · exact fun hbounded => hwaits ((always_snoc _ _ _).mp hbounded).1
  · exact hwaits

end Network

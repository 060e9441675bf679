import Mathlib.Order.BooleanAlgebra.Set
import Ps2Client.History.Proofs.ContractProofs
import Ps2Client.Network.Lifecycle
import Ps2Client.Network.Proofs.ConnectProofs

/-!
# Proofs: the life of a socket

Each function that opens a socket returns it, or has closed it.
-/

namespace Network

open CMemory History

variable {σ : Type} {k : Kernel σ} {P Q : Table → Prop} {T : Table} {n : Net σ} {sock : Int}

/-- A call that keeps the contract of the table. -/
theorem holds_perform {c : NetCall} (hP : socketContract.Holds P n.calls)
    (hev : ∀ t, P t → t.Assumes ⟨c, (k.perform c n).1⟩ →
      t.Guarantees ⟨c, (k.perform c n).1⟩ ∧ Q (t.next ⟨c, (k.perform c n).1⟩)) :
    socketContract.Holds Q (k.perform c n).2.calls := hP.snoc hev

/-- A call that only uses an open socket, or none. -/
theorem holds_use {c : NetCall} (hP : socketContract.Holds P n.calls)
    (hev : ∀ t, P t → ∀ r, t.Guarantees ⟨c, r⟩ ∧ t.next ⟨c, r⟩ = t) :
    socketContract.Holds P (k.perform c n).2.calls :=
  hP.stutter fun t ht => hev t ht _

/-! ## Closing -/

theorem Table.Plus.mem {t : Table} (ht : T.Plus sock t) : sock ∈ t.opened := by
  obtain ⟨-, rfl⟩ := ht
  exact Set.mem_insert sock T.opened

/-- Giving up closes the socket that was opened. -/
theorem giveUp_holds (r : Int) (hsane : T.Sane)
    (hn : socketContract.Holds (T.Plus sock) n.calls) :
    socketContract.Holds (· = T) (giveUp k sock r n).2.calls := by
  refine holds_perform hn ?_
  rintro t ⟨hnew, rfl⟩ -
  refine ⟨⟨Set.mem_insert sock T.opened, fun hs => hnew (hsane hs)⟩, ?_⟩
  show Table.mk (insert sock T.opened \ {sock}) T.uncancelled = T
  rw [Set.insert_sdiff_self_of_notMem hnew]

/-! ## Opening -/

/-- The flags are set on an open socket. -/
theorem networkSetBlocking_holds (blocking : Bool) (hsock : ∀ t, P t → sock ∈ t.opened)
    (hn : socketContract.Holds P n.calls) :
    socketContract.Holds P (networkSetBlocking k sock blocking n).2.calls := by
  have hget : socketContract.Holds P (k.perform (.getFlags sock) n).2.calls :=
    holds_use hn fun t ht r => ⟨hsock t ht, rfl⟩
  unfold networkSetBlocking
  dsimp only
  split
  · exact hget
  · exact holds_use hget fun t ht r => ⟨hsock t ht, rfl⟩

/-- The socket that is waited for is open. -/
theorem awaitConnect_holds (timeoutMs r : Int) (hsock : ∀ t, P t → sock ∈ t.opened)
    (hn : socketContract.Holds P n.calls) :
    socketContract.Holds P (awaitConnect k sock timeoutMs r n).2.calls := by
  have hselect : socketContract.Holds P
      (k.perform (.select sock (timeoutMs.tdiv 1000) (timeoutMs.tmod 1000 * 1000)) n).2.calls :=
    holds_use hn fun t ht r => ⟨hsock t ht, rfl⟩
  unfold awaitConnect
  dsimp only
  split
  · exact hn
  · split
    · exact hselect
    · exact holds_use hselect fun t ht r => ⟨hsock t ht, rfl⟩

/-- A function that returns the new socket has opened it. -/
theorem opens_of_nonneg (hsock : 0 ≤ sock) (hn : socketContract.Holds (T.Plus sock) n.calls) :
    socketContract.Holds (T.Opens sock) n.calls := by
  refine hn.mono fun t ht => ?_
  unfold Table.Opens
  rw [if_neg (Int.not_lt.mpr hsock)]
  exact ht

/-- A function that returns an error has left the table as it was. -/
theorem opens_of_neg {r : Int} (hr : r < 0) (hn : socketContract.Holds (· = T) n.calls) :
    socketContract.Holds (T.Opens r) n.calls := by
  refine hn.mono fun t ht => ?_
  unfold Table.Opens
  rw [if_pos hr]
  exact ht

/-- A connection without a limit of time gives one open socket, or closes it. -/
theorem connectWaiting_holds (address port : Int) (hsane : T.Sane) (hsock : 0 ≤ sock)
    (hn : socketContract.Holds (T.Plus sock) n.calls) :
    socketContract.Holds (T.Opens (connectWaiting k sock address port n).1)
      (connectWaiting k sock address port n).2.calls := by
  have hconnect : socketContract.Holds (T.Plus sock)
      (k.perform (.connect sock address port) n).2.calls :=
    holds_use hn fun t ht r => ⟨ht.mem, rfl⟩
  unfold connectWaiting
  dsimp only
  split
  · exact opens_of_neg (show (-2 : Int) < 0 by decide) (giveUp_holds (-2) hsane hconnect)
  · exact opens_of_nonneg hsock hconnect

/-- So does a connection within a limit, on each way out. -/
theorem connectWithin_holds (address port timeoutMs : Int) (hsane : T.Sane) (hsock : 0 ≤ sock)
    (hn : socketContract.Holds (T.Plus sock) n.calls) :
    socketContract.Holds (T.Opens (connectWithin k sock address port timeoutMs n).1)
      (connectWithin k sock address port timeoutMs n).2.calls := by
  have hfail : ∀ {m : Net σ} (r : Int), r < 0 → socketContract.Holds (T.Plus sock) m.calls →
      socketContract.Holds (T.Opens (giveUp k sock r m).1) (giveUp k sock r m).2.calls :=
    fun r hr hm => opens_of_neg hr (giveUp_holds r hsane hm)
  have hblock := networkSetBlocking_holds (k := k) false (fun _ ht => ht.mem) hn
  have hconnect : socketContract.Holds (T.Plus sock) (k.perform (.connect sock address port)
      (networkSetBlocking k sock false n).2).2.calls :=
    holds_use hblock fun t ht r => ⟨ht.mem, rfl⟩
  unfold connectWithin
  dsimp only
  split
  · exact hfail (-1) (by decide) hblock
  · generalize hw : (if (k.perform (.connect sock address port)
        (networkSetBlocking k sock false n).2).1 < 0 then _ else _ : Bool × Net σ) = w
    have hawait : socketContract.Holds (T.Plus sock) w.2.calls := by
      rw [← hw]
      split
      · exact awaitConnect_holds _ _ (fun _ ht => ht.mem) hconnect
      · exact hconnect
    have hunblock := networkSetBlocking_holds (k := k) true (fun _ ht => ht.mem) hawait
    split
    · exact hfail (-2) (by decide) hawait
    · split
      · exact hfail (-1) (by decide) hunblock
      · exact opens_of_nonneg hsock hunblock

/-- A new socket is not one of those that are open. -/
theorem socket_holds (type : SocketType) (hn : socketContract.Holds (· = T) n.calls) :
    socketContract.Holds (T.Opens (k.perform (.socket type) n).1)
      (k.perform (.socket type) n).2.calls := by
  refine holds_perform hn ?_
  rintro t rfl hfresh
  refine ⟨trivial, ?_⟩
  unfold Table.Opens
  by_cases hsock : 0 ≤ (k.perform (.socket type) n).1
  · rw [if_neg (Int.not_lt.mpr hsock)]
    exact ⟨hfresh hsock, if_pos hsock⟩
  · rw [if_pos (Int.not_le.mp hsock)]
    exact if_neg hsock

/-- A result that is a socket is one more open socket. -/
theorem Table.opens_nonneg {t : Table} (hsock : ¬ sock < 0) (ht : T.Opens sock t) :
    T.Plus sock t := by
  unfold Table.Opens at ht
  rwa [if_neg hsock] at ht

/-- `network_connect_timeout` opens one socket, or fails and leaves none. -/
theorem networkConnectTimeout_holds (hostname : List Byte) (port : Int) (type : SocketType)
    (timeoutMs : Int) (hsane : T.Sane) (hn : socketContract.Holds (· = T) n.calls) :
    socketContract.Holds (T.Opens (networkConnectTimeout k hostname port type timeoutMs n).1)
      (networkConnectTimeout k hostname port type timeoutMs n).2.calls := by
  have hhost : socketContract.Holds (· = T) (k.perform (.gethostbyname hostname) n).2.calls :=
    holds_use hn fun t ht r => ⟨trivial, rfl⟩
  have hsocket := socket_holds (k := k) type hhost
  unfold networkConnectTimeout
  dsimp only
  split
  · exact opens_of_neg (show (-1 : Int) < 0 by decide) hhost
  · split
    · rename_i hneg
      refine opens_of_neg (show (-1 : Int) < 0 by decide) (hsocket.mono fun t ht => ?_)
      unfold Table.Opens at ht
      rwa [if_pos hneg] at ht
    · rename_i hsock
      have hopen := hsocket.mono fun t ht => Table.opens_nonneg hsock ht
      generalize k.perform (.socket type) (k.perform (.gethostbyname hostname) n).2 = s at hsock hopen
      have hready : socketContract.Holds (T.Plus s.1)
          (if type = .stream then (k.perform (.noDelay s.1) s.2).2 else s.2).calls := by
        split
        · exact holds_use hopen fun t ht r => ⟨ht.mem, rfl⟩
        · exact hopen
      split
      · exact connectWaiting_holds _ _ hsane (Int.not_lt.mp hsock) hready
      · exact connectWithin_holds _ _ _ hsane (Int.not_lt.mp hsock) hready

/-- `network_listen` opens one socket, or fails and leaves none. -/
theorem networkListen_holds (port : Int) (type : SocketType) (hsane : T.Sane)
    (hn : socketContract.Holds (· = T) n.calls) :
    socketContract.Holds (T.Opens (networkListen k port type n).1)
      (networkListen k port type n).2.calls := by
  have hsocket := socket_holds (k := k) type hn
  unfold networkListen
  dsimp only
  split
  · rename_i hneg
    refine opens_of_neg (show (-1 : Int) < 0 by decide) (hsocket.mono fun t ht => ?_)
    unfold Table.Opens at ht
    rwa [if_pos hneg] at ht
  · rename_i hsock
    have hopen := hsocket.mono fun t ht => Table.opens_nonneg hsock ht
    have hbind : socketContract.Holds (T.Plus (k.perform (.socket type) n).1)
        (k.perform (.bind (k.perform (.socket type) n).1 port)
          (k.perform (.socket type) n).2).2.calls :=
      holds_use hopen fun t ht r => ⟨ht.mem, rfl⟩
    split
    · exact opens_of_neg (show (-2 : Int) < 0 by decide) (giveUp_holds (-2) hsane hbind)
    · exact opens_of_nonneg (Int.not_lt.mp hsock) hbind

/-- The socket that was opened was not open before. -/
theorem Table.Opens.new {t : Table} (ht : T.Opens sock t) : 0 ≤ sock → sock ∉ T.opened := by
  intro hsock
  exact (Table.opens_nonneg (Int.not_lt.mpr hsock) ht).1

/-- A variable that is not negative has its socket. -/
theorem descriptor_of_nonneg (hsock : 0 ≤ sock) : descriptor sock = {sock} := by
  ext s
  exact ⟨fun hs => hs.2, fun hs => ⟨by rw [hs]; exact hsock, hs⟩⟩

/-- A negative variable has none. -/
theorem descriptor_of_neg (hsock : ¬ 0 ≤ sock) : descriptor sock = ∅ := by
  refine Set.eq_empty_of_forall_notMem ?_
  rintro s ⟨hs, rfl⟩
  exact hsock hs

theorem mem_descriptor (hsock : 0 ≤ sock) : sock ∈ descriptor sock := ⟨hsock, rfl⟩

/-- What is open then is what was open before and what the variable holds. -/
theorem Table.Opens.eq {t : Table} (ht : T.Opens sock t) :
    t = ⟨T.opened ∪ descriptor sock, T.uncancelled⟩ := by
  by_cases hsock : sock < 0
  · unfold Table.Opens at ht
    rw [if_pos hsock] at ht
    rw [descriptor_of_neg (Int.not_le.mpr hsock), Set.union_empty, ht]
  · obtain ⟨-, heq⟩ := Table.opens_nonneg hsock ht
    rw [descriptor_of_nonneg (Int.not_lt.mp hsock), heq, Set.union_singleton]

/-! ## The calls so far stay -/

/-- A call only adds itself to the calls so far. -/
theorem perform_grows (c : NetCall) (n : Net σ) : n.calls <+: (k.perform c n).2.calls :=
  List.prefix_append _ _

theorem networkSetBlocking_grows (sock : Int) (blocking : Bool) (n : Net σ) :
    n.calls <+: (networkSetBlocking k sock blocking n).2.calls := by
  unfold networkSetBlocking
  dsimp only
  split
  · exact perform_grows _ n
  · exact (perform_grows _ n).trans (perform_grows _ _)

theorem awaitConnect_grows (sock timeoutMs r : Int) (n : Net σ) :
    n.calls <+: (awaitConnect k sock timeoutMs r n).2.calls := by
  unfold awaitConnect
  dsimp only
  split
  · exact List.prefix_refl _
  · split
    · exact perform_grows _ n
    · exact (perform_grows _ n).trans (perform_grows _ _)

/-- A connection adds calls on every path. -/
theorem connectWithin_grows (sock address port timeoutMs : Int) (n : Net σ) :
    n.calls <+: (connectWithin k sock address port timeoutMs n).2.calls := by
  have hblock := networkSetBlocking_grows (k := k) sock false n
  have hconnect := hblock.trans (perform_grows (k := k) (.connect sock address port) _)
  unfold connectWithin
  dsimp only
  split
  · exact hblock.trans (perform_grows _ _)
  · generalize hw : (if (k.perform (.connect sock address port)
        (networkSetBlocking k sock false n).2).1 < 0 then _ else _ : Bool × Net σ) = w
    have hwait : n.calls <+: w.2.calls := by
      rw [← hw]
      split
      · exact hconnect.trans (awaitConnect_grows _ _ _ _)
      · exact hconnect
    have hunblock := hwait.trans (networkSetBlocking_grows (k := k) sock true w.2)
    split
    · exact hwait.trans (perform_grows _ _)
    · split
      · exact hunblock.trans (perform_grows _ _)
      · exact hunblock

theorem connectWaiting_grows (sock address port : Int) (n : Net σ) :
    n.calls <+: (connectWaiting k sock address port n).2.calls := by
  unfold connectWaiting
  dsimp only
  split
  · exact (perform_grows _ n).trans (perform_grows _ _)
  · exact perform_grows _ n

theorem networkConnectTimeout_grows (hostname : List Byte) (port : Int) (type : SocketType)
    (timeoutMs : Int) (n : Net σ) :
    n.calls <+: (networkConnectTimeout k hostname port type timeoutMs n).2.calls := by
  have hhost := perform_grows (k := k) (.gethostbyname hostname) n
  have hsocket := hhost.trans (perform_grows (k := k) (.socket type) _)
  unfold networkConnectTimeout
  dsimp only
  split
  · exact hhost
  · split
    · exact hsocket
    · generalize k.perform (.socket type) (k.perform (.gethostbyname hostname) n).2 = s at hsocket
      have hready : n.calls <+:
          (if type = .stream then (k.perform (.noDelay s.1) s.2).2 else s.2).calls := by
        split
        · exact hsocket.trans (perform_grows _ _)
        · exact hsocket
      split
      · exact hready.trans (connectWaiting_grows _ _ _ _)
      · exact hready.trans (connectWithin_grows _ _ _ _ _)

/-! ## The flags of an open socket -/

/-- `sock` is an open socket that is not non-blocking. -/
def IsBlocking (type : SocketType) (sock : Int) (n : Net σ) : Prop :=
  ∃ flags, openSockets n.calls sock = some (type, flags) ∧ flags &&& O_NONBLOCK = 0

/-- Clearing a flag clears it. -/
theorem andnot_nonblock (flags : Word) : (flags &&& ~~~O_NONBLOCK) &&& O_NONBLOCK = 0 := by
  rw [BitVec.and_assoc, BitVec.and_comm (~~~O_NONBLOCK), BitVec.and_not_self]
  exact BitVec.and_zero

/-- `fcntl` with `F_SETFL` sets the flags of one socket, if it succeeds. -/
theorem openSockets_setFlags (flags : Word) (n : Net σ) :
    openSockets (k.perform (.setFlags sock flags) n).2.calls sock =
      if 0 ≤ (k.perform (.setFlags sock flags) n).1 then
        (openSockets n.calls sock).map fun s => (s.1, flags)
      else openSockets n.calls sock := by
  rw [openSockets_perform]
  simp only [track]
  split
  · exact Function.update_self ..
  · rfl

/-- `fcntl` with `F_GETFL` changes no flags. -/
theorem openSockets_getFlags (n : Net σ) :
    openSockets (k.perform (.getFlags sock) n).2.calls = openSockets n.calls := by
  rw [openSockets_perform]
  rfl

/-- What is open as a socket of some type stays so when its flags are changed. -/
theorem networkSetBlocking_type {type : SocketType} (blocking : Bool)
    (hopen : ∃ flags, openSockets n.calls sock = some (type, flags)) :
    ∃ flags, openSockets (networkSetBlocking k sock blocking n).2.calls sock = some (type, flags) := by
  obtain ⟨flags, hflags⟩ := hopen
  unfold networkSetBlocking
  dsimp only
  split
  · rw [openSockets_getFlags]
    exact ⟨flags, hflags⟩
  · rw [openSockets_setFlags, openSockets_getFlags, hflags]
    split_ifs
    all_goals exact ⟨_, rfl⟩

/-- A socket that was made blocking is. -/
theorem networkSetBlocking_blocking {type : SocketType}
    (hopen : ∃ flags, openSockets n.calls sock = some (type, flags))
    (hok : ¬ (networkSetBlocking k sock true n).1 < 0) :
    IsBlocking type sock (networkSetBlocking k sock true n).2 := by
  obtain ⟨flags, hflags⟩ := hopen
  unfold networkSetBlocking at hok ⊢
  dsimp only at hok ⊢
  by_cases hfail : (k.perform (.getFlags sock) n).1 < 0
  · rw [if_pos hfail] at hok
    exact absurd (show (-1 : Int) < 0 by decide) hok
  · rw [if_neg hfail] at hok ⊢
    refine ⟨_, ?_, andnot_nonblock (.ofInt 32 (k.perform (.getFlags sock) n).1)⟩
    rw [if_pos rfl, openSockets_setFlags, openSockets_getFlags, hflags]
    rw [if_pos rfl] at hok
    rw [if_pos (Int.not_lt.mp hok)]
    rfl

/-- Waiting for a connection changes no flags. -/
theorem awaitConnect_openSockets (timeoutMs r : Int) :
    openSockets (awaitConnect k sock timeoutMs r n).2.calls = openSockets n.calls := by
  have hselect : openSockets (k.perform (.select sock (timeoutMs.tdiv 1000)
      (timeoutMs.tmod 1000 * 1000)) n).2.calls = openSockets n.calls := by
    rw [openSockets_perform]
    rfl
  unfold awaitConnect
  dsimp only
  split
  · rfl
  · split
    · exact hselect
    · rw [openSockets_perform, hselect]
      rfl

/-- A socket that is connected within a limit is blocking again. -/
theorem connectWithin_blocking {type : SocketType} {address port timeoutMs : Int}
    (hopen : ∃ flags, openSockets n.calls sock = some (type, flags))
    (hok : 0 ≤ (connectWithin k sock address port timeoutMs n).1) :
    (connectWithin k sock address port timeoutMs n).1 = sock ∧
      IsBlocking type sock (connectWithin k sock address port timeoutMs n).2 := by
  have hset := networkSetBlocking_type (k := k) false hopen
  unfold connectWithin at hok ⊢
  dsimp only at hok ⊢
  split at hok
  · exact absurd (show (0 : Int) ≤ -1 from hok) (by decide)
  · rename_i hb
    rw [if_neg hb]
    generalize hw : (if (k.perform (.connect sock address port)
        (networkSetBlocking k sock false n).2).1 < 0 then _ else _ : Bool × Net σ) = w at hok ⊢
    have hawait : ∃ flags, openSockets w.2.calls sock = some (type, flags) := by
      rw [← hw]
      split
      · rw [awaitConnect_openSockets, openSockets_perform]
        exact hset
      · rw [openSockets_perform]
        exact hset
    split at hok
    · exact absurd (show (0 : Int) ≤ -2 from hok) (by decide)
    · rename_i hwait
      rw [if_neg hwait]
      split at hok
      · exact absurd (show (0 : Int) ≤ -1 from hok) (by decide)
      · rename_i hunblock
        rw [if_neg hunblock]
        exact ⟨rfl, networkSetBlocking_blocking hawait hunblock⟩

/-- A socket that is connected without a limit was never anything else. -/
theorem connectWaiting_blocking {type : SocketType} {address port : Int}
    (hopen : openSockets n.calls sock = some (type, 0))
    (hok : 0 ≤ (connectWaiting k sock address port n).1) :
    (connectWaiting k sock address port n).1 = sock ∧
      IsBlocking type sock (connectWaiting k sock address port n).2 := by
  unfold connectWaiting at hok ⊢
  dsimp only at hok ⊢
  split at hok
  · exact absurd (show (0 : Int) ≤ -2 from hok) (by decide)
  · rename_i hc
    rw [if_neg hc]
    refine ⟨rfl, 0, ?_, rfl⟩
    rw [openSockets_perform]
    exact hopen

/-- The socket that `network_connect_timeout` returns is blocking. -/
theorem networkConnectTimeout_blocking {hostname : List Byte} {port timeoutMs : Int}
    {type : SocketType} (hok : 0 ≤ (networkConnectTimeout k hostname port type timeoutMs n).1) :
    IsBlocking type (networkConnectTimeout k hostname port type timeoutMs n).1
      (networkConnectTimeout k hostname port type timeoutMs n).2 := by
  have hneg : ¬ (0 : Int) ≤ -1 := by decide
  unfold networkConnectTimeout at hok ⊢
  dsimp only at hok ⊢
  split at hok
  · exact absurd hok hneg
  rename_i hresolved
  rw [if_neg hresolved]
  split at hok
  · exact absurd hok hneg
  rename_i hsock
  rw [if_neg hsock]
  have hopen := openSockets_socket k (Int.not_lt.mp hsock)
  generalize k.perform (.socket type) (k.perform (.gethostbyname hostname) n).2 = s at hok hopen ⊢
  have hready : openSockets (if type = .stream then (k.perform (.noDelay s.1) s.2).2 else s.2).calls
      s.1 = some (type, 0) := by
    split
    · rw [openSockets_noDelay]
      exact hopen
    · exact hopen
  split at hok
  · rename_i htimeout
    rw [if_pos htimeout]
    obtain ⟨hfd, hblocking⟩ := connectWaiting_blocking hready hok
    rw [hfd]
    exact hblocking
  · rename_i htimeout
    rw [if_neg htimeout]
    obtain ⟨hfd, hblocking⟩ := connectWithin_blocking ⟨0, hready⟩ hok
    rw [hfd]
    exact hblocking

/-- From any sockets that are open, `network_connect_timeout` returns a new one, which is not
non-blocking, or it fails and leaves no socket more; and it uses only open sockets. -/
theorem networkConnectTimeout_lifecycle (k : Kernel σ) (hostname : List Byte) (port timeoutMs : Int)
    (type : SocketType) (T : Table) (n : Net σ) (hsane : T.Sane)
    (hn : socketContract.Holds (· = T) n.calls) :
    socketContract.Holds (T.Opens (networkConnectTimeout k hostname port type timeoutMs n).1)
      (networkConnectTimeout k hostname port type timeoutMs n).2.calls ∧
    (0 ≤ (networkConnectTimeout k hostname port type timeoutMs n).1 →
      IsBlocking type (networkConnectTimeout k hostname port type timeoutMs n).1
        (networkConnectTimeout k hostname port type timeoutMs n).2) :=
  ⟨networkConnectTimeout_holds hostname port type timeoutMs hsane hn, networkConnectTimeout_blocking⟩

/-- A kernel that gives out the descriptors from 3 on, and where every call succeeds at once. -/
def countingKernel : Kernel Int where
  call c st :=
    match c with
    | .socket _ => (3 + st, st + 1)
    | _ => (0, st)
  timeMs st := (0, st)
  now _ := 0
  call_now _ _ := Int.le_refl 0
  timeMs_now _ := ⟨Int.le_refl 0, Int.le_refl 0⟩

/-- The first connection gets the socket 3. -/
theorem networkConnectTimeout_lifecycle_first :
    (networkConnectTimeout countingKernel [] 0x4711 .stream 3000 ⟨0, []⟩).1 = 3 ∧
    socketContract.Holds (Table.Opens ⟨∅, ∅⟩ 3)
      (networkConnectTimeout countingKernel [] 0x4711 .stream 3000 ⟨0, []⟩).2.calls ∧
    IsBlocking .stream 3 (networkConnectTimeout countingKernel [] 0x4711 .stream 3000 ⟨0, []⟩).2 := by
  have hstart : socketContract.Holds (· = ⟨∅, ∅⟩) (⟨0, []⟩ : Net Int).calls := Contract.holds_nil rfl
  obtain ⟨hopens, hblocking⟩ := networkConnectTimeout_lifecycle countingKernel [] 0x4711 3000 .stream
    ⟨∅, ∅⟩ ⟨0, []⟩ (Set.empty_subset _) hstart
  exact ⟨rfl, hopens, hblocking (by decide)⟩

end Network

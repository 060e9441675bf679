import Ps2Client.Network.Proofs.LifecycleProofs
import Ps2Client.Ps2link.Connect

/-!
# Proofs: the sockets of ps2link

What `ps2link_connect` opens, and that `ps2link_disconnect` closes it.
-/

namespace Ps2link

open CMemory Network History

variable {σ : Type} (k : Kernel σ) (hostname : List Byte) (what : Word) (timeoutMs : Int) (n : Net σ)

/-! ## The three parts of `ps2link_connect` -/

def listenConsole : Int × Net σ :=
  if what &&& CONNECT_CONSOLE ≠ 0 then networkListen k 0x4712 .dgram n else (-1, n)

def openRequest (n : Net σ) : Int × Net σ :=
  if what &&& CONNECT_REQUEST ≠ 0 then connectRequest k hostname timeoutMs n else (-1, n)

def openCommand (n : Net σ) : Int × Net σ :=
  if what &&& CONNECT_COMMAND ≠ 0 then networkConnect k hostname 0x4712 .dgram n else (-1, n)

/-- `ps2link_connect` goes as far as its parts succeed. -/
theorem connect_cases :
    let c := listenConsole k what n
    let r := openRequest k hostname what timeoutMs c.2
    let d := openCommand k hostname what r.2
    let result := connect k hostname what timeoutMs n
    (c.1 < 0 ∧ result.result = EXIT_PORTBUSY ∧ (∃ message, result.message = some message) ∧
      result.sockets = { console := c.1 } ∧ result.net = c.2) ∨
    (r.1 < 0 ∧ result.result = EXIT_NOCONNECT ∧ (∃ message, result.message = some message) ∧
      result.sockets = { console := c.1, request := r.1 } ∧ result.net = r.2) ∨
    (d.1 < 0 ∧ result.result = EXIT_NOCONNECT ∧ (∃ message, result.message = some message) ∧
      result.sockets = { console := c.1, request := r.1, command := d.1 } ∧ result.net = d.2) ∨
    (what &&& CONNECT_REQUEST ≠ 0 → 0 ≤ r.1) ∧ (what &&& CONNECT_COMMAND ≠ 0 → 0 ≤ d.1) ∧
      result.result = 0 ∧ result.message = none ∧
      result.sockets = { console := c.1, request := r.1, command := d.1 } ∧
      result.net = createThread k r.1 (createThread k c.1 (k.readClock d.2).2) := by
  intro c r d result
  by_cases hc : what &&& CONNECT_CONSOLE ≠ 0 ∧ c.1 < 0
  · have heq : result = ⟨EXIT_PORTBUSY, _, { console := c.1 }, c.2⟩ := if_pos hc
    rw [heq]
    exact Or.inl ⟨hc.2, rfl, ⟨_, rfl⟩, rfl, rfl⟩
  right
  by_cases hr : what &&& CONNECT_REQUEST ≠ 0 ∧ r.1 < 0
  · have heq : result = ⟨EXIT_NOCONNECT, _, { console := c.1, request := r.1 }, r.2⟩ :=
      (if_neg hc).trans (if_pos hr)
    rw [heq]
    exact Or.inl ⟨hr.2, rfl, ⟨_, rfl⟩, rfl, rfl⟩
  right
  by_cases hd : what &&& CONNECT_COMMAND ≠ 0 ∧ d.1 < 0
  · have heq : result =
        ⟨EXIT_NOCONNECT, _, { console := c.1, request := r.1, command := d.1 }, d.2⟩ :=
      (if_neg hc).trans ((if_neg hr).trans (if_pos hd))
    rw [heq]
    exact Or.inl ⟨hd.2, rfl, ⟨_, rfl⟩, rfl, rfl⟩
  right
  have heq : result = ⟨0, none, { console := c.1, request := r.1, command := d.1 },
      createThread k r.1 (createThread k c.1 (k.readClock d.2).2)⟩ :=
    (if_neg hc).trans ((if_neg hr).trans (if_neg hd))
  rw [heq]
  exact ⟨fun hasked => Int.not_lt.mp fun hneg => hr ⟨hasked, hneg⟩,
    fun hasked => Int.not_lt.mp fun hneg => hd ⟨hasked, hneg⟩, rfl, rfl, rfl, rfl⟩

/-! ## What the variables hold -/

/-- The sockets of the three variables. -/
def Sockets.held (s : Sockets) : Set Int :=
  descriptor s.console ∪ descriptor s.request ∪ descriptor s.command

/-- Those for which a thread is created. -/
def Sockets.served (s : Sockets) : Set Int := descriptor s.console ∪ descriptor s.request

/-- The open sockets are those of the variables, each in one of them. -/
structure Sockets.Has (s : Sockets) (threads : Set Int) (t : Table) : Prop where
  table : t = ⟨s.held, threads⟩
  request : 0 ≤ s.request → s.request ≠ s.console
  command : 0 ≤ s.command → s.command ≠ s.console ∧ s.command ≠ s.request

theorem descriptor_minus_one : descriptor (-1) = ∅ := descriptor_of_neg (by decide)

theorem Sockets.held_initial : ({} : Sockets).held = ∅ := by
  unfold Sockets.held
  rw [descriptor_minus_one, Set.union_empty, Set.union_empty]

/-! ## Opening -/

variable {k hostname what timeoutMs n} {s : Sockets} {threads : Set Int} {T : Table} {sock : Int}

theorem not_asked (hn : socketContract.Holds (· = T) n.calls) :
    socketContract.Holds (T.Opens (-1)) n.calls := opens_of_neg (by decide) hn

/-- The socket for the console is opened, if it is asked for, -/
theorem listenConsole_holds (hsane : T.Sane) (hn : socketContract.Holds (· = T) n.calls) :
    socketContract.Holds (T.Opens (listenConsole k what n).1) (listenConsole k what n).2.calls := by
  unfold listenConsole
  split
  · exact networkListen_holds _ _ hsane hn
  · exact not_asked hn

/-- then the one for requests, -/
theorem openRequest_holds (hsane : T.Sane) (hn : socketContract.Holds (· = T) n.calls) :
    socketContract.Holds (T.Opens (openRequest k hostname what timeoutMs n).1)
      (openRequest k hostname what timeoutMs n).2.calls := by
  have hopens := networkConnectTimeout_holds (k := k) hostname 0x4711 .stream timeoutMs hsane hn
  unfold openRequest connectRequest
  dsimp only
  split
  · split
    · exact hopens
    · rename_i hsock
      refine opens_of_nonneg (Int.not_lt.mp hsock) (holds_use ?_ fun t ht r => ⟨ht.mem, rfl⟩)
      exact hopens.mono fun t ht => Table.opens_nonneg hsock ht
  · exact not_asked hn

/-- and the one for commands. -/
theorem openCommand_holds (hsane : T.Sane) (hn : socketContract.Holds (· = T) n.calls) :
    socketContract.Holds (T.Opens (openCommand k hostname what n).1)
      (openCommand k hostname what n).2.calls := by
  unfold openCommand networkConnect
  split
  · exact networkConnectTimeout_holds _ _ _ _ hsane hn
  · exact not_asked hn

theorem openRequest_grows : n.calls <+: (openRequest k hostname what timeoutMs n).2.calls := by
  have hgrows := networkConnectTimeout_grows (k := k) hostname 0x4711 .stream timeoutMs n
  unfold openRequest connectRequest
  dsimp only
  split
  · split
    · exact hgrows
    · exact hgrows.trans (perform_grows _ _)
  · exact List.prefix_refl _

theorem openCommand_grows : n.calls <+: (openCommand k hostname what n).2.calls := by
  unfold openCommand networkConnect
  split
  · exact networkConnectTimeout_grows _ _ _ _ n
  · exact List.prefix_refl _

/-- No thread has been created yet. -/
theorem Sockets.Has.sane {t : Table} (ht : s.Has ∅ t) : t.Sane := by
  rw [ht.table]
  exact Set.empty_subset _

theorem has_console {t : Table} {c : Int} (ht : Table.Opens ⟨∅, ∅⟩ c t) :
    Sockets.Has { console := c } ∅ t := by
  refine ⟨?_, nofun, nofun⟩
  rw [ht.eq]
  unfold Sockets.held
  rw [descriptor_minus_one, Set.union_empty, Set.union_empty, Set.empty_union]

theorem has_request {t t' : Table} {c r : Int} (ht : Sockets.Has { console := c } ∅ t)
    (hopens : t.Opens r t') : Sockets.Has { console := c, request := r } ∅ t' := by
  have hnew := hopens.new
  rw [hopens.eq, ht.table]
  rw [ht.table] at hnew
  unfold Sockets.held at hnew ⊢
  simp only [descriptor_minus_one, Set.union_empty] at hnew ⊢
  refine ⟨?_, ?_, nofun⟩
  · unfold Sockets.held
    simp only [descriptor_minus_one, Set.union_empty]
  · intro hr heq
    exact hnew hr ⟨hr, heq⟩

theorem has_command {t t' : Table} {c r d : Int}
    (ht : Sockets.Has { console := c, request := r } ∅ t) (hopens : t.Opens d t') :
    Sockets.Has { console := c, request := r, command := d } ∅ t' := by
  have hnew := hopens.new
  rw [hopens.eq, ht.table]
  rw [ht.table] at hnew
  unfold Sockets.held at hnew ⊢
  simp only [descriptor_minus_one, Set.union_empty] at hnew ⊢
  refine ⟨rfl, ht.request, ?_⟩
  intro hd
  refine ⟨fun heq => hnew hd (Or.inl ⟨hd, heq⟩),
    fun heq => hnew hd (Or.inr ⟨hd, heq⟩)⟩

/-! ## Threads -/

/-- A thread is created for an open socket that has none. -/
theorem createThread_holds (sock : Int) (hheld : descriptor sock ⊆ s.held)
    (hnew : ∀ t, s.Has threads t → 0 ≤ sock → sock ∉ threads)
    (hn : socketContract.Holds (s.Has threads) n.calls) :
    socketContract.Holds (s.Has (threads ∪ descriptor sock)) (createThread k sock n).calls := by
  unfold createThread
  split
  · rename_i hsock
    refine holds_perform hn fun t ht _ => ?_
    have hfresh := hnew t ht hsock
    obtain ⟨rfl, hrequest, hcommand⟩ := ht
    refine ⟨⟨hheld (mem_descriptor hsock), hfresh⟩, ?_, hrequest, hcommand⟩
    rw [descriptor_of_nonneg hsock, Set.union_singleton]
    rfl
  · rename_i hsock
    rw [descriptor_of_neg hsock, Set.union_empty]
    exact hn

/-- The thread of a socket is cancelled. -/
theorem cancelThread_holds (hthread : ∀ t, s.Has threads t → 0 ≤ sock → sock ∈ threads)
    (hn : socketContract.Holds (s.Has threads) n.calls) :
    socketContract.Holds (s.Has (threads \ descriptor sock)) (cancelThread k sock n).calls := by
  unfold cancelThread
  split
  · rename_i hsock
    refine holds_perform hn fun t ht _ => ?_
    have hmem := hthread t ht hsock
    obtain ⟨rfl, hrequest, hcommand⟩ := ht
    refine ⟨hmem, ?_, hrequest, hcommand⟩
    rw [descriptor_of_nonneg hsock]
    rfl
  · rename_i hsock
    rw [descriptor_of_neg hsock, Set.sdiff_empty]
    exact hn

/-! ## Closing -/

/-- A socket is closed that has no thread, or none any more. -/
theorem closeSocket_holds (sock : Int) {P : Table → Prop}
    (hopen : ∀ t, P t → 0 ≤ sock → sock ∈ t.opened ∧ sock ∉ t.uncancelled)
    (hn : socketContract.Holds P n.calls) :
    socketContract.Holds (fun t' => ∃ t, P t ∧ t' = ⟨t.opened \ descriptor sock, t.uncancelled⟩)
      (closeSocket k sock n).calls := by
  unfold closeSocket networkDisconnect
  split
  · rename_i hsock
    refine holds_perform hn fun t ht _ => ⟨hopen t ht hsock, t, ht, ?_⟩
    rw [descriptor_of_nonneg hsock]
    rfl
  · rename_i hsock
    refine hn.mono fun t ht => ⟨t, ht, ?_⟩
    rw [descriptor_of_neg hsock, Set.sdiff_empty]

/-- Closing the command socket, which no thread serves. -/
theorem closeCommand_holds (hn : socketContract.Holds (s.Has s.served) n.calls) :
    socketContract.Holds (Sockets.Has { s with command := -1 } s.served)
      (closeSocket k s.command n).calls := by
  have hopen : ∀ t, s.Has s.served t → 0 ≤ s.command →
      s.command ∈ t.opened ∧ s.command ∉ t.uncancelled := by
    rintro t ⟨rfl, hrequest, hcommand⟩ hsock
    refine ⟨Or.inr (mem_descriptor hsock), ?_⟩
    rintro (⟨-, heq⟩ | ⟨-, heq⟩)
    · exact (hcommand hsock).1 heq
    · exact (hcommand hsock).2 heq
  refine (closeSocket_holds s.command hopen hn).mono ?_
  rintro t' ⟨t, ⟨rfl, hrequest, hcommand⟩, rfl⟩
  refine ⟨?_, hrequest, nofun⟩
  have hrest : s.held \ descriptor s.command = Sockets.held { s with command := -1 } := by
    unfold Sockets.held
    rw [descriptor_minus_one, Set.union_empty, Set.union_sdiff_right]
    refine sdiff_eq_left.mpr (Set.disjoint_right.mpr ?_)
    rintro x ⟨hx, rfl⟩ (⟨-, heq⟩ | ⟨-, heq⟩)
    · exact (hcommand hx).1 heq
    · exact (hcommand hx).2 heq
  rw [hrest]

/-- When both threads are cancelled, no socket has one. -/
theorem served_all_cancelled (s : Sockets) :
    (s.served \ descriptor s.request) \ descriptor s.console = ∅ := by
  unfold Sockets.served
  rw [sdiff_sdiff_comm, Set.union_sdiff_left, sdiff_eq_bot_iff.mpr (Set.sdiff_subset ..)]
  rfl

/-- `ps2link_disconnect` closes the sockets, after it has cancelled the threads that serve them. -/
theorem disconnect_holds (hn : socketContract.Holds (s.Has s.served) n.calls) :
    socketContract.Holds (· = ⟨∅, ∅⟩) (disconnect k s n).calls := by
  have hrequest : ∀ t, s.Has s.served t → 0 ≤ s.request → s.request ∈ s.served :=
    fun t ht hsock => Or.inr (mem_descriptor hsock)
  have hconsole : ∀ t, s.Has (s.served \ descriptor s.request) t → 0 ≤ s.console →
      s.console ∈ s.served \ descriptor s.request := by
    intro t ht hsock
    refine ⟨Or.inl (mem_descriptor hsock), ?_⟩
    rintro ⟨-, heq⟩
    exact ht.request (heq ▸ hsock) heq.symm
  have hcancelled := cancelThread_holds (k := k) hconsole (cancelThread_holds (k := k) hrequest hn)
  rw [served_all_cancelled] at hcancelled
  have hcommand := closeSocket_holds (k := k) s.command (fun t ht hsock =>
    ⟨by rw [ht.table]; exact Or.inr (mem_descriptor hsock), by rw [ht.table]; exact id⟩) hcancelled
  have hrequest' := closeSocket_holds (k := k) s.request (by
    rintro t ⟨t₀, ht₀, rfl⟩ hsock
    rw [ht₀.table]
    refine ⟨⟨Or.inl (Or.inr (mem_descriptor hsock)), ?_⟩, id⟩
    rintro ⟨hnonneg, heq⟩
    exact (ht₀.command (heq ▸ hnonneg)).2 heq.symm) hcommand
  have hconsole' := closeSocket_holds (k := k) s.console (by
    rintro t ⟨t₁, ⟨t₀, ht₀, rfl⟩, rfl⟩ hsock
    rw [ht₀.table]
    refine ⟨⟨⟨Or.inl (Or.inl (mem_descriptor hsock)), ?_⟩, ?_⟩, id⟩
    · rintro ⟨hnonneg, heq⟩
      exact (ht₀.command (heq ▸ hnonneg)).1 heq.symm
    · rintro ⟨hnonneg, heq⟩
      exact ht₀.request (heq ▸ hnonneg) heq.symm) hrequest'
  refine hconsole'.mono ?_
  rintro t ⟨t₂, ⟨t₁, ⟨t₀, ht₀, rfl⟩, rfl⟩, rfl⟩
  rw [ht₀.table]
  have hnone : ((s.held \ descriptor s.command) \ descriptor s.request) \ descriptor s.console = ∅ := by
    refine Set.eq_empty_of_forall_notMem ?_
    rintro x ⟨⟨⟨(hx | hx) | hx, hcommand⟩, hrequest⟩, hconsole⟩
    · exact hconsole hx
    · exact hrequest hx
    · exact hcommand hx
  dsimp only
  rw [hnone]

/-! ## `ps2link_connect` -/

/-- When it fails, what was opened stays in the variables, and no thread was created. -/
theorem connect_holds {c : Connected σ} (hc : c = connect k hostname what timeoutMs n)
    (hn : socketContract.Holds (· = ⟨∅, ∅⟩) n.calls) :
    socketContract.Holds (c.sockets.Has (if c.result = 0 then c.sockets.served else ∅)) c.net.calls := by
  have hlisten : socketContract.Holds (Sockets.Has { console := (listenConsole k what n).1 } ∅)
      (listenConsole k what n).2.calls :=
    (listenConsole_holds (Set.empty_subset _) hn).mono fun t ht => has_console ht
  generalize hcon : listenConsole k what n = con at hlisten
  have hrequest : socketContract.Holds (Sockets.Has
      { console := con.1, request := (openRequest k hostname what timeoutMs con.2).1 } ∅)
      (openRequest k hostname what timeoutMs con.2).2.calls := by
    refine (hlisten.bind openRequest_grows fun t ht hstart => openRequest_holds ht.sane hstart).mono ?_
    rintro t' ⟨t, ht, hopens⟩
    exact has_request ht hopens
  generalize hreq : openRequest k hostname what timeoutMs con.2 = req at hrequest
  have hcommand : socketContract.Holds (Sockets.Has
      { console := con.1, request := req.1, command := (openCommand k hostname what req.2).1 } ∅)
      (openCommand k hostname what req.2).2.calls := by
    refine (hrequest.bind openCommand_grows fun t ht hstart => openCommand_holds ht.sane hstart).mono ?_
    rintro t' ⟨t, ht, hopens⟩
    exact has_command ht hopens
  have hcases := connect_cases k hostname what timeoutMs n
  dsimp only at hcases
  rw [hcon, hreq, ← hc] at hcases
  rcases hcases with ⟨-, hresult, -, hsockets, hnet⟩ | ⟨-, hresult, -, hsockets, hnet⟩ |
    ⟨-, hresult, -, hsockets, hnet⟩ | ⟨-, -, hresult, -, hsockets, hnet⟩
  · rw [hresult, hsockets, hnet, if_neg (by decide)]
    exact hlisten
  · rw [hresult, hsockets, hnet, if_neg (by decide)]
    exact hrequest
  · rw [hresult, hsockets, hnet, if_neg (by decide)]
    exact hcommand
  · rw [hresult, hsockets, hnet, if_pos rfl]
    have hfirst := createThread_holds (k := k) con.1 (Set.subset_union_left.trans
      Set.subset_union_left) (fun _ _ _ => id) (show socketContract.Holds _
        (k.readClock (openCommand k hostname what req.2).2).2.calls from hcommand)
    have hboth := createThread_holds (k := k) req.1 (Set.subset_union_right.trans
      Set.subset_union_left) (fun t ht hsock => ?_) hfirst
    · rw [Set.empty_union] at hboth
      exact hboth
    · rw [Set.empty_union]
      rintro ⟨-, heq⟩
      exact ht.request hsock heq

end Ps2link

import Ps2Client.Fsclient.Program
import Ps2Client.Fsclient.Proofs.CompleteProofs
import Ps2Client.Fsclient.Proofs.DirProofs
import Ps2Client.Fsclient.Proofs.MainProofs
import Ps2Client.Network.Proofs.LifecycleProofs

/-!
# Proofs: the whole of fsclient

The calls of a function are those of its parts. A copy makes them on one of its two sides, in the order
of its steps.
-/

namespace Fsclient

open CMemory Network Utility Ps2netfs
open Ps2link (Host HostCall fileHost)

variable {σ : Type} {e : Endian} {h : Host σ} {w w₁ w₂ w' : World σ} {calls : List (Command × Int)}

/-! ## The calls on a connection -/

theorem Called.host (hcalled : Called e h w calls w₁) (hsock : w₂.sock = w₁.sock) :
    Called e h w calls w₂ := by
  induction hcalled with
  | nil hsame => exact .nil (hsock.trans hsame)
  | cons hsame _ ih => exact .cons hsame (ih hsock)

theorem Called.snoc (hcalled : Called e h w calls w₁) (c : Command) :
    Called e h w (calls ++ [(c, (command e h c w₁).1)]) (command e h c w₁).2.2 := by
  generalize hw : (command e h c w₁).2.2 = w₂
  induction hcalled with
  | nil hsame =>
    subst hw
    exact .cons hsame (.nil rfl)
  | cons hsame _ ih => exact .cons hsame (ih hw)

/-- The calls of two parts. -/
theorem Called.append {more : List (Command × Int)} (hcalled : Called e h w calls w₁)
    (hmore : Called e h w₁ more w') : Called e h w (calls ++ more) w' := by
  induction hcalled with
  | nil hsame =>
    cases hmore with
    | nil hsame' => exact .nil (hsame'.trans hsame)
    | cons hsame' hrest => exact .cons (hsame'.trans hsame) hrest
  | cons hsame _ ih => exact .cons hsame (ih hmore)

theorem called_single (c : Command) (w : World σ) :
    Called e h w [(c, (command e h c w).1)] (command e h c w).2.2 := .cons rfl (.nil rfl)

/-! ## One command -/

variable {c : Call} {command : Command}

/-- A call of a single command, which fails when the command does. -/
theorem single_session {status : Int} (hopening : c.opening = command) (hopens : opens command = none)
    (hstatus : (Fsclient.command e h command w).1 < 0 → status ≠ 0) :
    InSession e h c status w (Fsclient.command e h command w).2.2 := by
  refine ⟨_, called_single command w, ?_, fun hzero call hcall hfailed => ?_⟩
  · rw [← hopening]
    exact .single (.inl (by rw [hopening, hopens]))
  · rw [List.mem_singleton.mp hcall] at hfailed
    exact hstatus hfailed.1 hzero

theorem simple_session {failed : String} {status : Int} {out : List Printed}
    (hrun : some (simple e h command failed w) = some (status, out, w'))
    (hopening : c.opening = command) (hopens : opens command = none) : InSession e h c status w w' := by
  by_cases hneg : (commandResult e h command w).1 < 0
  · rw [simple, if_pos hneg] at hrun
    cases hrun
    exact single_session hopening hopens fun _ => (by decide : (-1 : Int) ≠ 0)
  · rw [simple, if_neg hneg] at hrun
    cases hrun
    exact single_session hopening hopens fun hbad => absurd hbad hneg

theorem devlist_session {r : Devices} (hrun : (devlist e h w).1 = some r) :
    InSession e h .devlist r.status w (devlist e h w).2 := by
  refine single_session rfl rfl fun hneg => ?_
  have hlist : listDevices (Fsclient.command e h listing w).1
      (Fsclient.command e h listing w).2.1 = some r := hrun
  rw [listDevices, if_pos hneg] at hlist
  cases hlist
  exact (by decide : (-1 : Int) ≠ 0)

/-! ## A directory -/

theorem dirLoop_calls (w : World σ) {w' : World σ} {dd files total files' total' : Int}
    {out : List Printed} (hloop : dirLoop e h dd files total w = some (files', total', out, w')) :
    ∃ calls, Called e h w calls w' ∧ ∀ call ∈ calls, call.1 = .dread (.ofInt 32 dd) := by
  have hread := called_single (e := e) (h := h) (.dread (.ofInt 32 dd)) w
  have hdread : ∀ call ∈ [(Command.dread (.ofInt 32 dd), (dread e h dd w).1)],
      call.1 = .dread (.ofInt 32 dd) := fun call hcall => by rw [List.mem_singleton.mp hcall]
  rw [dirLoop] at hloop
  dsimp only at hloop
  by_cases hpos : 0 < (dread e h dd w).1
  · rw [dif_pos hpos] at hloop
    split at hloop
    · rename_i line files₁ hline hfiles
      rw [Option.map_eq_some_iff] at hloop
      obtain ⟨⟨files₂, total₂, out₂, w₂⟩, hrest, heq⟩ := hloop
      cases heq
      obtain ⟨calls, hcalled, hall⟩ := dirLoop_calls _ hrest
      exact ⟨_, hread.append hcalled, List.forall_mem_append.mpr ⟨hdread, hall⟩⟩
    · cases hloop
  · rw [dif_neg hpos] at hloop
    cases hloop
    exact ⟨_, hread, hdread⟩
termination_by w.sock.incoming.length
decreasing_by exact dread_pos e h hpos

theorem dopen_failed {pathname : Option CStr} (status : Int)
    (hneg : (commandResult e h (.dopen pathname 0) w).1 < 0) (hstatus : status ≠ 0) :
    InSession e h (.dir pathname) status w (commandResult e h (.dopen pathname 0) w).2 :=
  ⟨_, called_single _ w, .single (.inr hneg), fun hzero => absurd hzero hstatus⟩

theorem dir_session {pathname : CStr} {status : Int} {out : List Printed}
    (hrun : dir e h pathname w = some (status, out, w')) :
    InSession e h (.dir (some pathname)) status w w' := by
  unfold dir at hrun
  dsimp only at hrun
  by_cases hneg : (commandResult e h (.dopen (some pathname) 0) w).1 < 0
  · rw [if_pos hneg] at hrun
    cases hrun
    exact dopen_failed _ hneg (by decide)
  rw [if_neg hneg] at hrun
  split at hrun
  · cases hrun
  rename_i files total lines w₁ hloop
  obtain ⟨calls, hcalled, hall⟩ := dirLoop_calls _ hloop
  set dd := (commandResult e h (.dopen (some pathname) 0) w).1
  have hopened : Called e h w [(Command.dopen (some pathname) 0, dd)]
      (commandResult e h (.dopen (some pathname) 0) w).2 := called_single _ w
  have hclosed := (hopened.append hcalled).snoc (.dclose (.ofInt 32 dd))
  set closed := commandResult e h (.dclose (.ofInt 32 dd)) w₁ with hclose
  have hsession : Session (.dir (some pathname))
      ([(Command.dopen (some pathname) 0, dd)] ++ calls ++ [(.dclose (.ofInt 32 dd), closed.1)]) := by
    refine .used rfl (Int.not_lt.mp hneg) fun call hcall => ?_
    rw [hall call hcall]
    exact rfl
  by_cases hbad : closed.1 < 0
  · rw [if_pos hbad] at hrun
    cases hrun
    exact ⟨_, hclosed, hsession, fun hzero => absurd hzero (by decide)⟩
  · rw [if_neg hbad] at hrun
    cases hrun
    refine ⟨_, hclosed, hsession, fun _ call hcall hfailed => ?_⟩
    rcases List.mem_append.mp hcall with hcall | hcall
    · rcases List.mem_append.mp hcall with hcall | hcall
      · rw [List.mem_singleton.mp hcall] at hfailed
        exact hneg hfailed.1
      · exact hfailed.2 _ (hall call hcall)
    · rw [List.mem_singleton.mp hcall] at hfailed
      exact hbad hfailed.1

/-! ## A copy -/

theorem InSession.host {status : Int} (hsession : InSession e h c status w w₁)
    (hsock : w₂.sock = w₁.sock) : InSession e h c status w w₂ := by
  obtain ⟨calls, hcalled, hsession, hgood⟩ := hsession
  exact ⟨calls, hcalled.host hsock, hsession, hgood⟩

variable {first : Command} {fd : Int} {steps : List Step}

variable (e h w first fd) in
/-- The file `fd` was opened and is in use. Where a call failed, a step did. -/
def InUse (w' : World σ) (steps : List Step) : Prop :=
  ∃ calls, Called e h w ((first, fd) :: calls) w' ∧ (∀ call ∈ calls, usesFile (.ofInt 32 fd) call.1) ∧
    ∀ call ∈ calls, call.2 < 0 → ∃ s ∈ steps, s.Failed

/-- A local step. -/
theorem InUse.host (hinUse : InUse e h w first fd w₁ steps) (s : Step) (hsock : w₂.sock = w₁.sock) :
    InUse e h w first fd w₂ (steps ++ [s]) := by
  obtain ⟨calls, hcalled, huses, hfailed⟩ := hinUse
  refine ⟨calls, hcalled.host hsock, huses, fun call hcall hneg => ?_⟩
  obtain ⟨t, ht, hbad⟩ := hfailed call hcall hneg
  exact ⟨t, List.mem_append_left [s] ht, hbad⟩

/-- A remote step. -/
theorem InUse.call (hinUse : InUse e h w first fd w₁ steps) (command : Command) (s : Step)
    (huse : usesFile (.ofInt 32 fd) command)
    (hneg : (Fsclient.command e h command w₁).1 < 0 → s.Failed) :
    InUse e h w first fd (Fsclient.command e h command w₁).2.2 (steps ++ [s]) := by
  obtain ⟨calls, hcalled, huses, hfailed⟩ := hinUse
  refine ⟨_, hcalled.snoc command, List.forall_mem_append.mpr ⟨huses, ?_⟩, fun call hcall hbad => ?_⟩
  · intro call hcall
    rw [List.mem_singleton.mp hcall]
    exact huse
  rcases List.mem_append.mp hcall with hcall | hcall
  · obtain ⟨t, ht, htFailed⟩ := hfailed call hcall hbad
    exact ⟨t, List.mem_append_left [s] ht, htFailed⟩
  · rw [List.mem_singleton.mp hcall] at hbad
    exact ⟨s, List.mem_append_right steps (List.mem_singleton_self s), hneg hbad⟩

/-- What was opened is closed. -/
theorem InUse.closed {status : Int} (hinUse : InUse e h w first fd w₁ steps) (hfd : 0 ≤ fd)
    (hopening : c.opening = first) (hopens : opens first = some (.close, usesFile))
    (hgood : status = 0 → (∀ s ∈ steps, ¬ s.Failed) ∧
      0 ≤ (Fsclient.command e h (.close (.ofInt 32 fd)) w₁).1) :
    InSession e h c status w (Fsclient.command e h (.close (.ofInt 32 fd)) w₁).2.2 := by
  obtain ⟨calls, hcalled, huses, hfailed⟩ := hinUse
  refine ⟨_, hcalled.snoc (.close (.ofInt 32 fd)), ?_, fun hzero call hcall hbad => ?_⟩
  · rw [← hopening]
    exact .used (by rw [hopening, hopens]) hfd huses
  obtain ⟨hnone, hclose⟩ := hgood hzero
  rcases List.mem_append.mp hcall with hcall | hcall
  · rcases List.mem_cons.mp hcall with rfl | hcall
    · exact Int.not_lt.mpr hfd hbad.1
    · obtain ⟨s, hs, hsFailed⟩ := hfailed call hcall hbad.1
      exact hnone s hs hsFailed
  · rw [List.mem_singleton.mp hcall] at hbad
    exact Int.not_lt.mpr hclose hbad.1

section

variable {μ : Type} {E : Ends μ}

theorem closeEnd_world (fd : Int) (op : μ → Int × μ) (step : Int → Step) (s : Int × Run μ) :
    (closeEnd fd op step s).2.world = if 0 ≤ fd then (op s.2.world).2 else s.2.world := by
  unfold closeEnd
  by_cases hfd : 0 ≤ fd
  · rw [if_pos hfd, if_pos hfd]
    rfl
  · rw [if_neg hfd, if_neg hfd]

theorem copyDone_world (l : Locals) (r : Run μ) :
    let w := if 0 ≤ l.fd0 then (E.closeSource l.fd0 r.world).2 else r.world
    (copyDone E l r).2.world = if 0 ≤ l.fd1 then (E.closeDestination l.fd1 w).2 else w := by
  intro w
  have hfirst := closeEnd_world l.fd0 (E.closeSource l.fd0) (.closeSource l.fd0) (l.status, r)
  have hsecond := closeEnd_world l.fd1 (E.closeDestination l.fd1) (.closeDestination l.fd1)
    (closeEnd l.fd0 (E.closeSource l.fd0) (.closeSource l.fd0) (l.status, r))
  rw [hfirst] at hsecond
  rw [← hsecond]
  unfold copyDone
  dsimp only
  split_ifs <;> rfl

/-- The first descriptor is the one of the source. -/
theorem copyBody_source (source destination : CStr) (w : μ) :
    (copyBody E source destination ⟨w, [], []⟩).1.fd0 = (E.openSource w).1 := by
  rcases copyBody_cases (E := E) source destination w with ⟨-, hl, -⟩ | ⟨-, -, hl, -⟩ |
    ⟨-, -, -, hl, -⟩ | ⟨-, -, -, -, hl, -⟩ | ⟨-, -, -, -, l, -, hl, -⟩ <;> rw [hl]

end

variable (e) {source destination : CStr}

/-- Nothing that the host does is seen on the connection. -/
theorem copyfrom_sock (l : Locals) (r : Run (World σ)) :
    (copyDone (copyfromEnds e h source destination) l r).2.world.sock =
      (if 0 ≤ l.fd0 then ((copyfromEnds e h source destination).closeSource l.fd0 r.world).2
        else r.world).sock := by
  rw [copyDone_world]
  split_ifs <;> rfl

theorem copyfrom_session (hh : Bounded h) (w : World σ) :
    InSession e h (.copyfrom (some source) (some destination)) (copyfrom e h source destination w).1 w
      (copyfrom e h source destination w).2.world := by
  have hE := copyfromEnds_sound e source destination hh
  have hkept := fun hzero => copy_kept hE source destination w hzero
  set E := copyfromEnds e h source destination
  set f := E.openSource w
  set n := E.seekEnd f.1 f.2
  set z := E.seekSet f.1 n.2
  set g := E.openDestination z.2
  set b := copyBody E source destination ⟨w, [], []⟩
  have hfd0 : b.1.fd0 = f.1 := copyBody_source source destination w
  have hsock : (copyfrom e h source destination w).2.world.sock =
      (if 0 ≤ b.1.fd0 then (E.closeSource b.1.fd0 b.2.world).2 else b.2.world).sock :=
    copyfrom_sock e b.1 b.2
  rw [hfd0] at hsock
  have hopened : InUse e h w (.open (some source) OPEN_READ) f.1 f.2 [.openSource f.1] :=
    ⟨[], called_single _ w, nofun, nofun⟩
  by_cases hneg : f.1 < 0
  · have hb : b = _ := if_pos hneg
    rw [if_neg (Int.not_le.mpr hneg), hb] at hsock
    refine ⟨_, (called_single _ w).host hsock, .single (.inr hneg), fun hzero => ?_⟩
    have hstatus : b.1.status = 0 := copyDone_status hzero
    rw [hb] at hstatus
    cases hstatus
  rw [if_pos (Int.not_lt.mp hneg)] at hsock
  have hend := hopened.call (.lseek (.ofInt 32 f.1) 0 LSEEK_END) (.seekEnd n.1) rfl id
  have hset := hend.call (.lseek (.ofInt 32 f.1) 0 LSEEK_SET) (.seekSet z.1) rfl id
  have hdest := hset.host (.openDestination g.1) (show g.2.sock = z.2.sock from rfl)
  have hbody := copyBody_keeps hE source destination w hopened hend hset hdest
    (fun count _ _ _ _ hinUse => hinUse.call (.read (.ofInt 32 f.1) (.ofInt 32 count)) _ rfl
      fun hbad => .inl (Int.le_of_lt hbad))
    (fun _ _ _ hinUse => hinUse.host _ rfl)
  refine InSession.host (hbody.closed (Int.not_lt.mp hneg) rfl rfl ?_) hsock
  intro hzero
  obtain ⟨-, hsteps, hgood, -⟩ := hkept hzero
  rw [hsteps] at hgood
  obtain ⟨hnone, hlast⟩ := List.forall_mem_append.mp hgood
  exact ⟨hnone, Int.not_lt.mp (hlast _ List.mem_cons_self)⟩

/-- Nothing was sent: the source could not be opened, or its length is not known. -/
theorem copyto_silent {l : Locals} {r : Run (World σ)} (w : World σ) (hstatus : l.status = -1)
    (hfd1 : l.fd1 = -1) (hsock : r.world.sock = w.sock) :
    InSession e h (.copyto (some source) (some destination))
      (copyDone (copytoEnds e h source destination) l r).1 w
      (copyDone (copytoEnds e h source destination) l r).2.world := by
  refine ⟨[], .nil ?_, .silent _ _, fun hzero => ?_⟩
  · rw [copyDone_world, hfd1, if_neg (by decide), ← hsock]
    split_ifs <;> rfl
  · have hbad := copyDone_status hzero
    rw [hstatus] at hbad
    cases hbad

theorem copyto_session (hh : Bounded h) (w : World σ) :
    InSession e h (.copyto (some source) (some destination)) (copyto e h source destination w).1 w
      (copyto e h source destination w).2.world := by
  have hE := copytoEnds_sound e source destination hh
  have hkept := fun hzero => copy_kept hE source destination w hzero
  set E := copytoEnds e h source destination
  set f := E.openSource w
  set n := E.seekEnd f.1 f.2
  set z := E.seekSet f.1 n.2
  set g := E.openDestination z.2
  set b := copyBody E source destination ⟨w, [], []⟩
  have hcopy : copyto e h source destination w = copyDone E b.1 b.2 := rfl
  rw [hcopy]
  have hfd0 : b.1.fd0 = f.1 := copyBody_source source destination w
  by_cases hf : f.1 < 0
  · have hb : b = _ := if_pos hf
    rw [hb]
    exact copyto_silent e w rfl rfl rfl
  by_cases hn : toInt32 n.1 < 0
  · have hb : b = _ := (if_neg hf).trans (if_pos hn)
    rw [hb]
    exact copyto_silent e w rfl rfl rfl
  by_cases hz : z.1 < 0
  · have hb : b = _ := (if_neg hf).trans ((if_neg hn).trans (if_pos hz))
    rw [hb]
    exact copyto_silent e w rfl rfl rfl
  have hopened : InUse e h w (.open (some destination) (OPEN_WRITE ||| OPEN_CREATE ||| OPEN_TRUNCATE))
      g.1 g.2 [.openSource f.1, .seekEnd n.1, .seekSet z.1, .openDestination g.1] :=
    ⟨[], .cons rfl (.nil rfl), nofun, nofun⟩
  have hworld := copyDone_world (E := E) b.1 b.2
  dsimp only at hworld
  rw [hfd0, if_pos (Int.not_lt.mp hf)] at hworld
  by_cases hg : g.1 < 0
  · have hb : b = _ := (if_neg hf).trans ((if_neg hn).trans ((if_neg hz).trans (if_pos hg)))
    have hfd1 : b.1.fd1 = g.1 := congrArg (·.1.fd1) hb
    rw [hfd1, if_neg (Int.not_le.mpr hg)] at hworld
    refine ⟨_, .cons (show z.2.sock = w.sock from rfl) (.nil ?_), .single (.inr hg), fun hzero => ?_⟩
    · rw [hworld, hb]
      rfl
    · have hstatus : b.1.status = 0 := copyDone_status hzero
      rw [hb] at hstatus
      cases hstatus
  have hb : b = _ := (if_neg hf).trans ((if_neg hn).trans ((if_neg hz).trans (if_neg hg)))
  have hfd1 : b.1.fd1 = g.1 := congrArg (·.1.fd1) hb
  rw [hfd1, if_pos (Int.not_lt.mp hg)] at hworld
  have hbody : InUse e h w (.open (some destination) (OPEN_WRITE ||| OPEN_CREATE ||| OPEN_TRUNCATE))
      g.1 b.2.world b.2.steps := by
    rw [hb]
    refine copyLoop_keeps hE (fun count w' _ _ _ hinUse => hinUse.host _ ?_)
      (fun data _ _ hinUse => hinUse.call
        (.write (.ofInt 32 g.1) (.ofNat 32 data.length) data) _ rfl
        fun hbad => .inl (Int.le_of_lt hbad))
      (toInt32 n.1) 0 _ hopened
    exact hostRead_sock h f.1 count w'
  have hlocal := hbody.host (.closeSource f.1 (E.closeSource f.1 b.2.world).1)
    (show (E.closeSource f.1 b.2.world).2.sock = b.2.world.sock from rfl)
  rw [hworld]
  refine hlocal.closed (Int.not_lt.mp hg) rfl rfl fun hzero => ?_
  obtain ⟨-, hsteps, hgood, -⟩ := hkept hzero
  rw [hsteps, List.append_cons] at hgood
  obtain ⟨hnone, hlast⟩ := List.forall_mem_append.mp hgood
  exact ⟨hnone, Int.not_lt.mp (hlast _ (List.mem_singleton_self _))⟩

/-! ## The program -/

/-- Every function has a session for its call. -/
theorem runCall_session (hh : Bounded h) {status : Int} {out : List Printed}
    (hrun : runCall e h c w = some (status, out, w')) : InSession e h c status w w' := by
  cases c with
  | copyfrom source destination =>
    cases source with
    | none => cases hrun
    | some source =>
      cases destination with
      | none => cases hrun
      | some destination =>
        cases hrun
        exact copyfrom_session e hh w
  | copyto source destination =>
    cases source with
    | none => cases hrun
    | some source =>
      cases destination with
      | none => cases hrun
      | some destination =>
        cases hrun
        exact copyto_session e hh w
  | delete pathname => exact simple_session hrun rfl rfl
  | devlist =>
    obtain ⟨r, hr, heq⟩ := Option.map_eq_some_iff.mp hrun
    cases heq
    exact devlist_session hr
  | dir pathname =>
    cases pathname with
    | none =>
      by_cases hneg : (commandResult e h (.dopen none 0) w).1 < 0
      · have hfailed : runCall e h (.dir none) w = some (-1, _, _) := if_pos hneg
        rw [hfailed] at hrun
        cases hrun
        exact dopen_failed _ hneg (by decide)
      · have hnone : runCall e h (.dir none) w = none := if_neg hneg
        rw [hnone] at hrun
        cases hrun
    | some pathname => exact dir_session hrun
  | mkdir pathname => exact simple_session hrun rfl rfl
  | mount device fsname => exact simple_session hrun rfl rfl
  | rmdir pathname => exact simple_session hrun rfl rfl
  | sync device => exact simple_session hrun rfl rfl
  | umount device => exact simple_session hrun rfl rfl

theorem results_perform {τ : Type} (k : Kernel τ) (n : Network.Net τ) (undefined : Call → Int)
    {status : Int} {out : List Printed} (hrun : runCall e h c w = some (status, out, w')) :
    (results e h k n w undefined).perform c = status := by
  unfold results
  dsimp only
  rw [hrun]

/-- `main` calls one function, once it is connected, and returns what that returns. Without a call
it returns no zero. -/
theorem perform_cases (net : Net) (hostname name : CStr) (operand : Nat → Option (Option CStr)) :
    (∃ c, (perform net hostname name operand) =
        ([.startup, .connect hostname, .call c], some (net.perform c)) ∧ 0 ≤ net.connect hostname) ∨
      (perform net hostname name operand).2 ≠ some 0 ∧
        ∀ c, .call c ∉ (perform net hostname name operand).1 := by
  unfold perform
  by_cases hstartup : net.startup < 0
  · rw [if_pos hstartup]
    exact .inr ⟨by simp, by simp⟩
  rw [if_neg hstartup]
  by_cases hconnect : net.connect hostname < 0
  · rw [if_pos hconnect]
    exact .inr ⟨by simp, by simp⟩
  rw [if_neg hconnect]
  cases dispatch name operand with
  | none => exact .inr ⟨by simp, by simp⟩
  | some c =>
    cases c with
    | none => exact .inr ⟨by simp, by simp⟩
    | some c => exact .inl ⟨c, rfl, Int.not_lt.mp hconnect⟩

theorem main_cases (net : Net) (env argv : List CStr) :
    (∃ hostname c, main net env argv =
        ([.startup, .connect hostname, .call c], some (net.perform c)) ∧ 0 ≤ net.connect hostname) ∨
      (main net env argv).2 ≠ some 0 ∧ ∀ c, .call c ∉ (main net env argv).1 := by
  by_cases hline : ∃ name operands, Line argv name operands
  · obtain ⟨name, operands, hline⟩ := hline
    obtain ⟨hostname, hrun⟩ := main_line net env hline
    rw [hrun]
    by_cases hcopy : isCopy name ∧ operands.length < 2
    · rw [if_pos hcopy]
      exact .inr ⟨by simp, by simp⟩
    · rw [if_neg hcopy]
      exact (perform_cases net hostname name _).imp_left fun hcalled => ⟨hostname, hcalled⟩
  · obtain ⟨hstatus, hcalls⟩ := main_other net env fun name operands h => hline ⟨name, operands, h⟩
    refine .inr ⟨?_, hcalls⟩
    rw [hstatus]
    decide

/-- Over a whole run fsclient has at most one session on its connection, for one call: a single
command, or what that call opened is used and then closed. It exits with 0 only after a session in
which no command failed. -/
theorem program_session {τ : Type} (hh : Bounded h) (k : Kernel τ) (n : Network.Net τ) (w : World σ)
    (undefined : Call → Int) (env argv : List CStr) :
    let run := main (results e h k n w undefined) env argv
    (run.2 = some 0 → ∃ c, .call c ∈ run.1) ∧
      ∀ c, .call c ∈ run.1 → (∀ c', .call c' ∈ run.1 → c' = c) ∧
        (∃ hostname, .connect hostname ∈ run.1 ∧ 0 ≤ (connect k hostname.bytes n).1) ∧
        ∀ status out w', runCall e h c w = some (status, out, w') →
          run.2 = some status ∧ InSession e h c status w w' := by
  intro run
  rcases main_cases (results e h k n w undefined) env argv with
    ⟨hostname, c, hrun, hconnect⟩ | ⟨hstatus, hcalls⟩
  · have hevents : run.1 = [.startup, .connect hostname, .call c] := congrArg Prod.fst hrun
    have honly : ∀ c', .call c' ∈ run.1 → c' = c := by
      intro c' hc'
      rw [hevents] at hc'
      simpa using hc'
    refine ⟨fun _ => ⟨c, ?_⟩, fun c' hc' => ?_⟩
    · rw [hevents]
      exact List.mem_of_getLast? rfl
    obtain rfl := honly c' hc'
    refine ⟨honly, ⟨hostname, ?_, hconnect⟩, fun status out w' hcall => ?_⟩
    · rw [hevents]
      exact List.mem_cons_of_mem _ List.mem_cons_self
    · have hcode : run.2 = some ((results e h k n w undefined).perform c') := congrArg Prod.snd hrun
      rw [hcode, results_perform e k n undefined hcall]
      exact ⟨rfl, runCall_session e hh hcall⟩
  · exact ⟨fun hzero => absurd hzero hstatus, fun c hc => absurd hc (hcalls c)⟩

/-- `fsclient copyfrom x x`, of a file of one byte. -/
theorem program_session_byte :
    let argv : List CStr :=
      [⟨literal "fsclient", by decide⟩, ⟨literal "copyfrom", by decide⟩, pathX, pathX]
    let run := main (results .little fileHost countingKernel ⟨0, []⟩ downloadWorld fun _ => 1) [] argv
    run.2 = some 0 ∧
      InSession .little fileHost (.copyfrom (some pathX) (some pathX)) 0 downloadWorld
        (copyfrom .little fileHost pathX pathX downloadWorld).2.world := by
  intro argv run
  obtain ⟨hcopy, -⟩ := copyfrom_byte
  have hline : Line argv ⟨literal "copyfrom", by decide⟩ [pathX, pathX] :=
    ⟨_, [], rfl, nofun, by decide⟩
  obtain ⟨hostname, hrun⟩ := main_line
    (results .little fileHost countingKernel ⟨0, []⟩ downloadWorld fun _ => 1) [] hline
  rw [if_neg (by decide)] at hrun
  have hcall : .call (.copyfrom (some pathX) (some pathX)) ∈ run.1 := by
    rw [show run = _ from hrun]
    exact List.mem_of_getLast? rfl
  obtain ⟨-, hcalls⟩ := program_session .little fileHost_bounded countingKernel ⟨0, []⟩
    downloadWorld (fun _ => 1) [] argv
  have hsession := (hcalls _ hcall).2.2 _ _ _ rfl
  rw [hcopy] at hsession
  exact hsession

end Fsclient

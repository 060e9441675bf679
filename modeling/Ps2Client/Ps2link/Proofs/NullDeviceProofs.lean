import Ps2Client.Ps2link.Proofs.HandshakeProofs

/-!
# Proofs: the descriptor of the handshake is open

A directory stream has a descriptor of its own, which a `close` can take away from it; the `closedir`
that follows closes whatever has the descriptor by then. As long as this does not happen, the
directory table and the descriptor of the handshake are right about what is open.
-/

namespace Ps2link

open CMemory Network Utility History

variable {dirfd : Nat → Int}

/-! ## The table of descriptors -/

theorem openFiles_snoc (log : List HostEvent) (ev : HostEvent) :
    openFiles dirfd (log ++ [ev]) = describe dirfd (openFiles dirfd log) ev := List.foldl_concat ..

theorem FreshDescriptors.before {log new : List HostEvent}
    (hfresh : FreshDescriptors dirfd (log ++ new)) : FreshDescriptors dirfd log := by
  rintro before ev after heq
  exact hfresh before ev (after ++ new) (by rw [heq, List.append_assoc, List.cons_append])

/-- A call that gives no descriptor back. -/
def HostEvent.Keeps (ev : HostEvent) : Prop :=
  match ev.1 with
  | .close _ | .closedir _ => False
  | _ => True

theorem HostEvent.Harmless.keeps {ev : HostEvent} (hev : ev.Harmless) : ev.Keeps := by
  obtain ⟨c, result⟩ := ev
  cases c with
  | close fd => exact hev
  | closedir dir => exact hev
  | _ => trivial

/-- What was open before a new descriptor was taken is not affected. -/
theorem update_new {table : Int → Option Opened} {fd new : Int} {u v : Opened}
    (hopen : table fd = some u) (hnew : table new = none) :
    Function.update table new (some v) fd = some u := by
  have hne : fd ≠ new := by
    rintro rfl
    rw [hnew] at hopen
    cases hopen
  rw [Function.update_of_ne hne]
  exact hopen

/-- Such a call leaves open what is open. -/
theorem describe_keeps {log : List HostEvent} {ev : HostEvent} {fd : Int} {u : Opened}
    (hopen : openFiles dirfd log fd = some u) (hev : ev.Keeps)
    (hfresh : FreshDescriptors dirfd (log ++ [ev])) :
    openFiles dirfd (log ++ [ev]) fd = some u := by
  rw [openFiles_snoc]
  obtain ⟨-, hnew⟩ := (always_snoc _ _ _).mp hfresh
  obtain ⟨c, result⟩ := ev
  cases c with
  | «open» path flags mode =>
    unfold describe
    dsimp only
    split_ifs with hresult
    · exact update_new hopen (hnew hresult)
    · exact hopen
  | opendir path =>
    cases (result : Option Nat) with
    | none => exact hopen
    | some dir => exact update_new hopen (hnew dir rfl)
  | close fd => exact hev.elim
  | closedir dir => exact hev.elim
  | _ => exact hopen

theorem openFiles_keeps {log new : List HostEvent} {fd : Int} {u : Opened}
    (hopen : openFiles dirfd log fd = some u) (hnew : ∀ ev ∈ new, ev.Keeps)
    (hfresh : FreshDescriptors dirfd (log ++ new)) : openFiles dirfd (log ++ new) fd = some u := by
  induction new using List.reverseRecOn with
  | nil => rwa [List.append_nil]
  | append_singleton new ev ih =>
    rw [← List.append_assoc] at hfresh ⊢
    refine describe_keeps (ih ?_ hfresh.before) ?_ hfresh
    · intro ev' hev'
      exact hnew ev' (List.mem_append_left _ hev')
    · exact hnew ev (by simp)

/-! ## What the client believes to be open -/

/-- The open entries of the directory table are different streams with their descriptors, and the
descriptor of the handshake is open on the null device. -/
structure DeviceInv (dirfd : Nat → Int) {σ : Type} (s : Client (σ × List HostEvent)) : Prop where
  slots : ∀ i dir, (s.dd i).dir = some dir →
    openFiles dirfd s.host.2 (dirfd dir) = some (.stream dir)
  distinct : ∀ i j dir, (s.dd i).dir = some dir → (s.dd j).dir = some dir → i = j
  device : 0 ≤ s.pingFd → openFiles dirfd s.host.2 s.pingFd = some (.file NULL_DEVICE)

section Requests

variable {σ : Type} {s s₁ s' : Client (σ × List HostEvent)} {op : Operation}

/-- Calls that give no descriptor back, in the same state of the handshake and the table. -/
theorem DeviceInv.keeps (hinv : DeviceInv dirfd s) (hpingFd : s'.pingFd = s.pingFd)
    (hdirs : ∀ i, (s'.dd i).dir = (s.dd i).dir)
    (hlog : ∃ new, s'.host.2 = s.host.2 ++ new ∧ ∀ ev ∈ new, ev.Keeps)
    (hfresh : FreshDescriptors dirfd s'.host.2) : DeviceInv dirfd s' := by
  obtain ⟨new, hlog, hnew⟩ := hlog
  have hkept : ∀ {fd u}, openFiles dirfd s.host.2 fd = some u →
      openFiles dirfd s'.host.2 fd = some u := by
    intro fd u hopen
    rw [hlog] at hfresh ⊢
    exact openFiles_keeps hopen hnew hfresh
  constructor
  · intro i dir hdir
    rw [hdirs] at hdir
    exact hkept (hinv.slots i dir hdir)
  · intro i j dir hi hj
    rw [hdirs] at hi hj
    exact hinv.distinct i j dir hi hj
  · intro hfd
    rw [hpingFd] at hfd ⊢
    exact hkept (hinv.device hfd)

theorem Harmless.device (hharmless : Harmless s s') (hinv : DeviceInv dirfd s)
    (hfresh : FreshDescriptors dirfd s'.host.2) : DeviceInv dirfd s' := by
  obtain ⟨new, hlog, hnew⟩ := hharmless.log
  exact hinv.keeps hharmless.pingFd hharmless.dirs
    ⟨new, hlog, fun ev hev => (hnew ev hev).keeps⟩ hfresh

/-- The file of the handshake is opened. -/
theorem DeviceInv.ping (hinv : DeviceInv dirfd s) {fd : Int} (hpingFd : s'.pingFd = fd)
    (hdd : s'.dd = s.dd) (hlog : s'.host.2 = s.host.2 ++ [⟨.open NULL_DEVICE O_WRONLY 0, fd⟩])
    (hfresh : FreshDescriptors dirfd s'.host.2) : DeviceInv dirfd s' := by
  rw [hlog] at hfresh
  constructor
  · intro i dir hdir
    rw [hdd] at hdir
    rw [hlog]
    exact describe_keeps (hinv.slots i dir hdir) trivial hfresh
  · rw [hdd]
    exact hinv.distinct
  · intro hfd
    rw [hpingFd] at hfd ⊢
    rw [hlog, openFiles_snoc]
    unfold describe
    dsimp only
    rw [if_pos hfd, Function.update_self]

/-- A descriptor is closed that is not one of a directory stream. -/
theorem DeviceInv.close (hinv : DeviceInv dirfd s) {fd result : Int}
    (hpingFd : s'.pingFd = -1 ∨ s'.pingFd = s.pingFd ∧ (0 ≤ s.pingFd → fd ≠ s.pingFd))
    (hdd : s'.dd = s.dd) (hlog : s'.host.2 = s.host.2 ++ [⟨.close fd, result⟩])
    (hspared : ∀ dir, openFiles dirfd s.host.2 fd ≠ some (.stream dir)) : DeviceInv dirfd s' := by
  have hother : ∀ {fd'}, fd' ≠ fd → openFiles dirfd s'.host.2 fd' = openFiles dirfd s.host.2 fd' := by
    intro fd' hne
    rw [hlog, openFiles_snoc]
    exact Function.update_of_ne hne ..
  constructor
  · intro i dir hdir
    rw [hdd] at hdir
    have hopen := hinv.slots i dir hdir
    rw [hother, hopen]
    rintro rfl
    exact hspared dir hopen
  · rw [hdd]
    exact hinv.distinct
  · intro hfd
    rcases hpingFd with hclosed | ⟨hsame, hne⟩
    · rw [hclosed] at hfd
      exact absurd hfd (by decide)
    · rw [hsame] at hfd ⊢
      rw [hother (hne hfd).symm]
      exact hinv.device hfd

/-- A directory is opened in a free entry of the table. -/
theorem DeviceInv.opendir (hinv : DeviceInv dirfd s) {i : Fin 10} {path : List Byte}
    {dir : Option Nat} (hpingFd : s'.pingFd = s.pingFd)
    (hdirs : ∀ j, (s'.dd j).dir = if j = i then dir else (s.dd j).dir)
    (hlog : s'.host.2 = s.host.2 ++ [⟨.opendir path, dir⟩])
    (hfresh : FreshDescriptors dirfd s'.host.2) : DeviceInv dirfd s' := by
  rw [hlog] at hfresh
  have hnew : ∀ d, dir = some d → openFiles dirfd s.host.2 (dirfd d) = none :=
    ((always_snoc _ _ _).mp hfresh).2
  have hkept : ∀ {fd u}, openFiles dirfd s.host.2 fd = some u →
      openFiles dirfd s'.host.2 fd = some u := by
    intro fd u hopen
    rw [hlog]
    exact describe_keeps hopen trivial hfresh
  have hold : ∀ {j d}, j ≠ i → (s'.dd j).dir = some d → (s.dd j).dir = some d := by
    intro j d hj hd
    rwa [hdirs, if_neg hj] at hd
  -- the descriptor of the new stream was free, so that no other entry has the stream
  have hother : ∀ {j d}, j ≠ i → (s'.dd j).dir = some d → dir ≠ some d := by
    intro j d hj hd hsame
    have hopen := hinv.slots j d (hold hj hd)
    rw [hnew d hsame] at hopen
    cases hopen
  have hself : (s'.dd i).dir = dir := (hdirs i).trans (if_pos rfl)
  constructor
  · intro j d hd
    by_cases hj : j = i
    · rw [hj, hself] at hd
      rw [hlog, openFiles_snoc, hd]
      exact Function.update_self ..
    · exact hkept (hinv.slots j d (hold hj hd))
  · intro j k d hj hk
    by_cases hji : j = i
    · by_cases hki : k = i
      · rw [hji, hki]
      · rw [hji, hself] at hj
        exact absurd hj (hother hki hk)
    · by_cases hki : k = i
      · rw [hki, hself] at hk
        exact absurd hk (hother hji hj)
      · exact hinv.distinct j k d (hold hji hj) (hold hki hk)
  · intro hfd
    rw [hpingFd] at hfd ⊢
    exact hkept (hinv.device hfd)

/-- A directory of the table is closed. -/
theorem DeviceInv.closedir (hinv : DeviceInv dirfd s) {i : Fin 10} {dir : Nat} {result : Int}
    (hpingFd : s'.pingFd = s.pingFd) (hslot : (s.dd i).dir = some dir)
    (hdirs : ∀ j, (s'.dd j).dir = if j = i then none else (s.dd j).dir)
    (hlog : s'.host.2 = s.host.2 ++ [⟨.closedir dir, result⟩]) : DeviceInv dirfd s' := by
  have hstream := hinv.slots i dir hslot
  have hother : ∀ {fd u}, openFiles dirfd s.host.2 fd = some u → u ≠ .stream dir →
      openFiles dirfd s'.host.2 fd = some u := by
    intro fd u hopen hu
    have hne : fd ≠ dirfd dir := by
      rintro rfl
      exact hu (Option.some.inj (hopen.symm.trans hstream))
    rw [hlog, openFiles_snoc]
    exact (Function.update_of_ne hne ..).trans hopen
  have hold : ∀ {j d}, (s'.dd j).dir = some d → j ≠ i ∧ (s.dd j).dir = some d := by
    intro j d hd
    rw [hdirs] at hd
    split_ifs at hd with hj
    exact ⟨hj, hd⟩
  constructor
  · intro j d hd
    obtain ⟨hj, hd⟩ := hold hd
    refine hother (hinv.slots j d hd) ?_
    intro heq
    cases heq
    exact hj (hinv.distinct j i dir hd hslot)
  · intro j k d hj hk
    exact hinv.distinct j k d (hold hj).2 (hold hk).2
  · intro hfd
    rw [hpingFd] at hfd ⊢
    exact hother (hinv.device hfd) nofun

/-- What every operation does to the descriptors. -/
theorem PingEffect.device (heffect : PingEffect op s s') (hinv : DeviceInv dirfd s)
    (hspared : ∀ fd : Word, op = .close fd →
      ∀ dir, openFiles dirfd s.host.2 fd.toInt ≠ some (.stream dir))
    (hfresh : FreshDescriptors dirfd s'.host.2) : DeviceInv dirfd s' := by
  cases heffect with
  | ping fd hop hpingFd hanswered hdd hlog hsent => exact hinv.ping hpingFd hdd hlog hfresh
  | close fd result hop hping hdd hlog =>
    refine hinv.close ?_ hdd hlog (hspared fd hop)
    rcases hping with ⟨-, hclosed, -⟩ | ⟨hne, hsame, -⟩
    · exact .inl hclosed
    · exact .inr ⟨hsame, fun hfd heq => hne ⟨hfd, heq⟩⟩
  | opendir i path dir s₁ hop hfirst hpingFd hanswered hdirs hlog =>
    refine (hfirst.device hinv ?_).opendir hpingFd hdirs hlog hfresh
    rw [hlog] at hfresh
    exact hfresh.before
  | closedir i dd dir result hop hpingFd hanswered hslot hdirs hlog =>
    exact hinv.closedir hpingFd hslot hdirs hlog
  | none hping hclose hharmless => exact hharmless.device hinv hfresh

theorem PingEffect.log (heffect : PingEffect op s s') :
    ∃ new, s'.host.2 = s.host.2 ++ new := by
  cases heffect with
  | ping fd hop hpingFd hanswered hdd hlog hsent => exact ⟨_, hlog⟩
  | close fd result hop hping hdd hlog => exact ⟨_, hlog⟩
  | opendir i path dir s₁ hop hfirst hpingFd hanswered hdirs hlog =>
    obtain ⟨new, hnew, -⟩ := hfirst.log
    refine ⟨new ++ [⟨.opendir path, dir⟩], ?_⟩
    rw [hlog, hnew, List.append_assoc]
  | closedir i dd dir result hop hpingFd hanswered hslot hdirs hlog => exact ⟨_, hlog⟩
  | none hping hclose hharmless =>
    obtain ⟨new, hnew, -⟩ := hharmless.log
    exact ⟨new, hnew⟩

end Requests

/-! ## Runs -/

section Runs

variable {σ : Type} {h : Host σ} {e : Endian} {timeoutMs : Int} {m m' : Meeting σ}

theorem serve_device {sock : Socket} {k : Kind} {packet : List Byte}
    (hk : net32 packet 0 = k.request)
    (hm : FreshDescriptors dirfd m.client.host.2 → DeviceInv dirfd m.client)
    (hspares : SparesStreams dirfd m (m.serve h e sock k packet))
    (hfresh : FreshDescriptors dirfd (m.serve h e sock k packet).client.host.2) :
    DeviceInv dirfd (m.serve h e sock k packet).client := by
  have heffect : PingEffect (k.decode e packet) { m.client with sock := sock }
      (m.serve h e sock k packet).client := by
    rw [show (m.serve h e sock k packet).client = _ from
      congrArg Prod.snd (dispatch_operation h.recording e _ hk)]
    exact perform_ping _ _
  obtain ⟨new, hlog⟩ := heffect.log
  have hbefore : FreshDescriptors dirfd m.client.host.2 := by
    rw [hlog] at hfresh
    exact hfresh.before
  have hinv := hm hbefore
  have hstart : DeviceInv dirfd { m.client with sock := sock } :=
    ⟨hinv.slots, hinv.distinct, hinv.device⟩
  refine heffect.device hstart (fun fd hop dir => ?_) hfresh
  exact hspares _ fd.toInt dir rfl ⟨fd, hop, rfl⟩

theorem HandshakeStep.device (hstep : HandshakeStep h e timeoutMs m m')
    (hspares : SparesStreams dirfd m m')
    (hm : FreshDescriptors dirfd m.client.host.2 → DeviceInv dirfd m.client)
    (hfresh : FreshDescriptors dirfd m'.client.host.2) : DeviceInv dirfd m'.client := by
  cases hstep with
  | handshake now m hlive =>
    rw [handshakeStep_client] at hfresh ⊢
    exact hm hfresh
  | serve sock k packet m hlive hk => exact serve_device hk hm hspares hfresh
  | between host sock activity lost m =>
    have hinv := hm hfresh
    exact ⟨hinv.slots, hinv.distinct, hinv.device⟩

theorem SparingRun.run (hrun : SparingRun h e dirfd timeoutMs m m') :
    HandshakeRun h e timeoutMs m m' := by
  induction hrun with
  | refl => exact .refl
  | tail _ hstep ih => exact ih.tail hstep.1

theorem SparingRun.device {host : σ} {sock : Socket}
    (hrun : SparingRun h e dirfd timeoutMs (.initial host sock) m)
    (hfresh : FreshDescriptors dirfd m.client.host.2) : DeviceInv dirfd m.client := by
  induction hrun with
  | refl =>
    constructor
    · intro i dir hdir
      cases hdir
    · intro i j dir hi
      cases hi
    · intro hfd
      have hminus : (0 : Int) ≤ -1 := hfd
      omega
  | tail _ hstep ih => exact hstep.1.device hstep.2 ih hfresh

end Runs

end Ps2link

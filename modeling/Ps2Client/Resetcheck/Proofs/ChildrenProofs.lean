import Ps2Client.Main.Proofs.CommandLineProofs
import Ps2Client.Main.Proofs.WireProofs
import Ps2Client.Resetcheck.Children

/-!
# Proofs: the children of `resetcheck`

The vectors are of the grammar of ps2client, and a hostname that was found once is found again. What a
process for a reset sends is then known from the process.
-/

namespace Resetcheck

open CMemory Main Network Ps2link

/-! ## The hostname -/

theorem environment_short (env : List CStr) {hostname : List Byte}
    (hshort : (cstr hostname).length ≤ 255) : (cstr (environment env hostname)).length ≤ 255 := by
  unfold environment
  induction env generalizing hostname with
  | nil => exact hshort
  | cons entry env ih =>
    rw [List.foldl_cons]
    split
    · refine ih ?_
      have hset := cstr_setHostname hostname ⟨entry.bytes.drop 12, fun hmem =>
        entry.noNull (List.mem_of_mem_drop hmem)⟩
      rw [hset, List.length_take]
      omega
    · exact ih hshort

theorem hostnameOf_short (env : List CStr) (pairs : List (CStr × CStr)) :
    (hostnameOf env pairs).length ≤ 255 := by
  have hinitial : (cstr initialHostname).length ≤ 255 := by
    have hcstr : cstr initialHostname = literal "192.168.0.10" :=
      cstr_append_zero (by decide) (List.replicate 243 0)
    rw [hcstr]
    decide
  unfold hostnameOf
  cases lastValue (literal "-h") pairs with
  | none => exact environment_short env hinitial
  | some value =>
    show (value.bytes.take 255).length ≤ 255
    rw [List.length_take]
    omega

theorem hostnameOf_noNull (env : List CStr) (pairs : List (CStr × CStr)) :
    0 ∉ hostnameOf env pairs := by
  unfold hostnameOf
  cases lastValue (literal "-h") pairs with
  | none => exact zero_notMem_cstr _
  | some value => exact fun hmem => value.noNull (List.mem_of_mem_take hmem)

/-- `main` gets to `ps2client_resetcheck` with its own name and a hostname that fits its array. -/
theorem resetcheck_reached {env argv : List CStr} {executable : Option CStr} {hostname : List Byte}
    {timeout : Int} (hmain : main env argv = .resetcheck executable hostname timeout) :
    ∃ program host : CStr, executable = some program ∧ host.bytes = hostname ∧ hostname.length ≤ 255 := by
  by_cases haccepted : ∃ executable pairs entry numbers operands,
      Accepted argv executable pairs entry numbers operands
  · obtain ⟨program, pairs, entry, numbers, operands, h⟩ := haccepted
    rw [main_accepted env h] at hmain
    unfold reachedFor at hmain
    split at hmain
    · obtain ⟨hprogram, hhost, -⟩ := Reached.resetcheck.inj hmain
      refine ⟨program, ⟨hostname, ?_⟩, hprogram.symm, rfl, ?_⟩
      · rw [← hhost]
        exact hostnameOf_noNull env pairs
      · rw [← hhost]
        exact hostnameOf_short env pairs
    · cases hmain
  · obtain ⟨message, usage, hrefused⟩ := main_refused env haccepted
    rw [hrefused] at hmain
    cases hmain

/-! ## The vectors -/

def Child.pairs (hostname : CStr) : List (CStr × CStr) :=
  [(.ofBuffer (literal "-h"), hostname), (.ofBuffer (literal "-t"), .ofBuffer (literal "1"))]

def Child.entry : Child → CommandEntry
  | .ping => ⟨literal "ping", .ping, 0⟩
  | .reset => ⟨literal "reset", .reset, 0⟩

theorem args_accepted (program hostname : CStr) (child : Child) :
    Accepted (child.args program hostname) program (Child.pairs hostname) child.entry (0, 0) [] where
  line := ⟨child.name, rfl, by cases child <;> rfl⟩
  pairs := by
    intro p hp
    simp only [Child.pairs, List.mem_cons, List.not_mem_nil, or_false] at hp
    rcases hp with rfl | rfl
    · exact Or.inl rfl
    · exact Or.inr (Or.inl rfl)
  command := by cases child <;> decide
  enough := by cases child <;> exact Nat.le_refl 0
  checked := by cases child <;> rfl
  alone := fun _ => rfl

/-- A child finds the hostname of its parent, whatever its environment, and a timeout of a second. -/
theorem args_reached (env : List CStr) (program hostname : CStr) (child : Child)
    (hshort : hostname.bytes.length ≤ 255) :
    main env (child.args program hostname) = .startup hostname.bytes 1 none child.id (0, 0) := by
  have hhost : hostnameOf env (Child.pairs hostname) = hostname.bytes := by
    show hostname.bytes.take 255 = hostname.bytes
    exact List.take_of_length_le hshort
  have htimeout : timeoutOf (Child.pairs hostname) = 1 := rfl
  have hmarker : markerOf (Child.pairs hostname) = none := rfl
  rw [main_accepted env (args_accepted program hostname child), reachedFor, hhost, htimeout, hmarker]
  cases child
  · exact if_neg (by decide)
  · exact if_neg (by decide)

/-! ## The reset -/

theorem reset_packet (e : Endian) (stack : List Byte) : Command.reset.packet e stack = resetPacket := by
  rw [Command.packet, packet_eq]
  rfl

variable {σ κ : Type} {e : Endian} {p : Process σ κ} {before : List Byte}

theorem forall₂_singleton {α β : Type} {R : α → β → Prop} {a : α} {bs : List β}
    (hbs : List.Forall₂ R [a] bs) : ∃ b, bs = [b] ∧ R a b := by
  cases hbs with
  | cons hab hrest =>
    cases hrest with
    | nil => exact ⟨_, rfl, hab⟩

/-- What a call of `ps2link_command_reset`, and no other one, has sent. -/
theorem sent_of_call {stack : List Byte} {result : Int} (hsent : p.Sent e before)
    (hcalls : p.calls = [⟨.reset, stack, result⟩]) :
    0 ≤ result ∧ p.command.sent = before ++ resetPacket ∨
      result < 0 ∧ ∃ bytes, bytes <+: resetPacket ∧ bytes ≠ resetPacket ∧
        p.command.sent = before ++ bytes := by
  obtain ⟨pieces, hpieces, heq⟩ := hsent
  rw [hcalls] at hpieces
  obtain ⟨bytes, rfl, hemits⟩ := forall₂_singleton hpieces
  rw [List.flatten_singleton] at heq
  unfold CommandCall.Emits at hemits
  dsimp only at hemits
  rw [reset_packet] at hemits
  rcases hemits with ⟨hresult, rfl⟩ | ⟨hresult, hfront, hne⟩
  · exact Or.inl ⟨by rw [hresult]; exact Int.natCast_nonneg _, heq⟩
  · exact Or.inr ⟨by rw [hresult]; decide, bytes, hfront, hne, heq⟩

theorem sent_of_no_call (hsent : p.Sent e before) (hcalls : p.calls = []) :
    p.command.sent = before := by
  obtain ⟨pieces, hpieces, heq⟩ := hsent
  rw [hcalls] at hpieces
  cases hpieces
  rw [heq]
  exact List.append_nil before

/-- Less than the packet has been sent, and the status says so. -/
theorem ResetSent.of_part {status : Int} (hstatus : status ≠ 0)
    (hpart : ∃ bytes, bytes <+: resetPacket ∧ bytes ≠ resetPacket ∧
      p.command.sent = before ++ bytes) : ResetSent before p status := by
  refine ⟨iff_of_false hstatus ?_, fun _ => hpart⟩
  obtain ⟨bytes, -, hne, hsent⟩ := hpart
  rw [hsent]
  exact fun hall => hne (List.append_cancel_left hall)

/-- The invocation of the child for a reset. -/
def resetting (hostname : List Byte) : Invocation where
  hostname := hostname
  timeout := 1
  marker := none
  id := .reset
  argv := []
  number0 := 0
  number1 := 0
  handled := ⟨nofun, nofun⟩

theorem resetting_needsHost (hostname : List Byte) : ¬ (resetting hostname).needsHost = true := by
  have hwhat : (what .reset &&& CONNECT_REQUEST != 0) = false := by decide
  exact fun hneeds => Bool.false_ne_true (hwhat.symm.trans hneeds)

theorem resetting_wait (hostname : List Byte) : (resetting hostname).wait = 0 := by
  have hflags : flags .reset &&& NO_WAIT ≠ 0 := by decide
  exact if_pos hflags

theorem called_reset {hostname : List Byte} {own : List CommandCall} {P : Int → Prop}
    (hcalled : p.Called (resetting hostname) own) (hown : (resetting hostname).Calls P own) :
    ∃ stack result, p.calls = [⟨.reset, stack, result⟩] ∧ P result := by
  obtain ⟨pings, hcalls, hpings⟩ := hcalled
  obtain ⟨stack, result, rfl, hresult⟩ := hown
  have hnone : pings = [] := by
    cases pings with
    | nil => rfl
    | cons c pings =>
      obtain ⟨-, hneeds⟩ := hpings c (List.mem_cons_self ..)
      exact absurd hneeds (resetting_needsHost hostname)
  rw [hnone] at hcalls
  exact ⟨stack, result, hcalls, hresult⟩

theorem resetSent_of_reason {hostname : List Byte} {status : Int} (hsent : p.Sent e before)
    (hreason : ExitReason (resetting hostname) p status) : ResetSent before p status := by
  cases hreason with
  | unconnected status message hstatus hcalls hmessages =>
    refine .of_part ?_ ⟨[], List.nil_prefix, by decide, ?_⟩
    · rcases hstatus with rfl | rfl <;> decide
    · rw [sent_of_no_call hsent hcalls, List.append_nil]
  | unanswered hneeds hcalls hresult hmessages =>
    exact absurd hneeds (resetting_needsHost hostname)
  | unsent own hcalls hown hcommand hanswered hmessages =>
    obtain ⟨stack, result, hcall, hresult⟩ := called_reset hcalls hown
    rcases sent_of_call hsent hcall with ⟨hnonneg, -⟩ | ⟨-, hpart⟩
    · exact absurd hresult (Int.not_lt.mpr hnonneg)
    · exact .of_part (by decide) hpart
  | returned status own packets hcalls hown hanswered hpackets hreason =>
    have hok : status = 0 := by
      generalize p.messages = messages at hreason
      cases hreason with
      | noWait hwait => rfl
      | marker pc recorded hstatus => cases hstatus
      | lost hwait hlost hmarker => exact absurd (resetting_wait hostname) hwait
      | idle hwait hmarker => rfl
      | timeout hwait hmarker hnone => exact absurd rfl hmarker
    obtain ⟨stack, result, hcall, hresult⟩ := called_reset hcalls hown
    rcases sent_of_call hsent hcall with ⟨-, hall⟩ | ⟨hneg, -⟩
    · exact ⟨iff_of_true hok hall, fun hne => absurd hok hne⟩
    · exact absurd hresult (Int.not_le.mpr hneg)

/-! ## The two programs together -/

/-- Each child of `resetcheck` starts the command it is meant to, with the hostname of its parent, in
every environment; and in every interleaving the child for a reset exits 0 if and only if the packet of
the reset has gone out. -/
theorem children_right {env argv : List CStr} {executable : Option CStr} {hostname : List Byte}
    {timeout : Int} (hmain : main env argv = .resetcheck executable hostname timeout) :
    ∃ program host : CStr, executable = some program ∧ host.bytes = hostname ∧ ∀ env' : List CStr,
      (∀ child : Child, main env' (child.args program host) =
        .startup hostname 1 none child.id (0, 0)) ∧
      ∃ i, (main env' (Child.reset.args program host)).invocation [] = some i ∧
        ∀ {σ κ : Type} (h : Host σ) (k : Kernel κ) (e : Endian) (host : σ) (request command : Socket)
          (kernel : κ) (p : Process σ κ) (status : Int),
          ProcessRun h k e i (.initial host request command kernel) p → p.pc = .exited status →
            ResetSent command.sent p status := by
  obtain ⟨program, host, hprogram, rfl, hshort⟩ := resetcheck_reached hmain
  refine ⟨program, host, hprogram, rfl, fun env' => ⟨fun child => args_reached env' program host child
    hshort, resetting host.bytes, ?_, ?_⟩⟩
  · rw [args_reached env' program host .reset hshort]
    rfl
  · intro σ κ h k e host request command kernel p status hrun hpc
    have hprogress := ProcessRun.progress hrun
    unfold Process.Progress at hprogress
    rw [hpc] at hprogress
    exact resetSent_of_reason (ProcessRun.sent hrun) hprogress

theorem children_right_local :
    ∃ program host : CStr, some (CStr.ofBuffer (literal "ps2client")) = some program ∧
      host.bytes = literal "192.168.0.10" ∧ ∀ env' : List CStr,
        (∀ child : Child, main env' (child.args program host) =
          .startup (literal "192.168.0.10") 1 none child.id (0, 0)) ∧
        ∃ i, (main env' (Child.reset.args program host)).invocation [] = some i ∧
          ∀ {σ κ : Type} (h : Host σ) (k : Kernel κ) (e : Endian) (host : σ) (request command : Socket)
            (kernel : κ) (p : Process σ κ) (status : Int),
            ProcessRun h k e i (.initial host request command kernel) p → p.pc = .exited status →
              ResetSent command.sent p status := by
  have hmain : main [] [.ofBuffer (literal "ps2client"), .ofBuffer (literal "resetcheck")] =
      .resetcheck (some (.ofBuffer (literal "ps2client"))) (literal "192.168.0.10") 10 := by
    have haccepted : Accepted [.ofBuffer (literal "ps2client"), .ofBuffer (literal "resetcheck")]
        (.ofBuffer (literal "ps2client")) [] ⟨literal "resetcheck", .resetcheck, 0⟩ (0, 0) [] :=
      ⟨⟨_, rfl, rfl⟩, nofun, by decide, Nat.le_refl 0, rfl, fun _ => rfl⟩
    rw [main_accepted [] haccepted]
    rfl
  exact children_right hmain

end Resetcheck

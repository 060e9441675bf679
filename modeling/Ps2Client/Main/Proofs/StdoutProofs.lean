import Ps2Client.Main.Proofs.ExitProofs
import Ps2Client.Ps2link.Proofs.LineBufferProofs

/-!
# Proofs: what the process prints

The console thread has one packet at a time: what is printed and what is not yet printed are what was
received, and what is scanned and not yet scanned as well. The line buffer holds the end of what has been
scanned, so a marker is only seen where it has been printed.
-/

namespace Main

open CMemory Network Ps2link

variable {σ κ : Type} {h : Host σ} {k : Kernel κ} {e : Endian} {i : Invocation}
variable {p p' : Process σ κ}

/-! ## The marker comes from the stream -/

/-- The line buffer holds the end of a line of the stream, and a marker that was seen is in the
stream. -/
def Shows (marker : Option (List Byte)) (stream : List Byte) (c : Console) : Prop :=
  match marker with
  | none => c.seen = false
  | some m =>
    (∃ line, LF ∉ line ∧ line <:+ visible stream ∧ c.Holds (retained line)) ∧
      (c.seen = true → m <:+: visible stream)

theorem shows_initial (marker : Option (List Byte)) : Shows marker [] .initial := by
  cases marker with
  | none => rfl
  | some m => exact ⟨⟨[], List.not_mem_nil, List.suffix_refl _, initial_holds⟩, nofun⟩

theorem visible_append (stream more : List Byte) :
    visible (stream ++ more) = visible stream ++ visible more := List.filter_append ..

theorem seen_of_record {c c' : Console} (hrecord : c'.record = c.record) : c'.seen = c.seen := by
  rw [← Console.record_isSome, hrecord, Console.record_isSome]

/-- The check of a line finds only a marker that came in the stream, -/
theorem checkLine_shows {m stream : List Byte} {c : Console} (hc : Shows (some m) stream c) :
    Shows (some m) stream (checkLine m c) := by
  obtain ⟨⟨line, hlf, hsuffix, hholds⟩, hseen⟩ := hc
  refine ⟨⟨line, hlf, hsuffix, (checkLine_holds m hholds).1⟩, ?_⟩
  intro hfound
  rcases (checkLine_seen m hholds).mp hfound with hold | hline
  · exact hseen hold
  · exact (hline.trans (retained_suffix line).isInfix).trans hsuffix.isInfix

/-- and the buffer holds only what came. -/
theorem scanByte_shows {m stream : List Byte} {c : Console} (b : Byte)
    (hc : Shows (some m) stream c) : Shows (some m) (stream ++ [b]) (scanByte m c b) := by
  have hgrows : visible stream <:+: visible (stream ++ [b]) := by
    rw [visible_append]
    exact (List.prefix_append _ _).isInfix
  by_cases hlf : b = LF
  · obtain ⟨⟨line, -, -, hholds⟩, hseen⟩ := checkLine_shows hc
    unfold scanByte
    rw [if_pos hlf]
    refine ⟨⟨[], List.not_mem_nil, List.nil_suffix, ?_⟩, fun hfound => (hseen hfound).trans hgrows⟩
    exact ⟨rfl, by decide, rfl, hholds.size, by decide⟩
  · obtain ⟨⟨line, hline, hsuffix, hholds⟩, hseen⟩ := hc
    by_cases hskip : b = CR ∨ b = 0
    · have hvisible : visible (stream ++ [b]) = visible stream := by
        rw [visible_append, show visible [b] = [] from
          List.filter_cons_of_neg (by rcases hskip with rfl | rfl <;> decide), List.append_nil]
      unfold scanByte
      rw [if_neg hlf, if_pos hskip, Shows, hvisible]
      exact ⟨⟨line, hline, hsuffix, hholds⟩, hseen⟩
    · have hvisible : visible (stream ++ [b]) = visible stream ++ [b] := by
        rw [visible_append, show visible [b] = [b] from
          List.filter_cons_of_pos (by simpa [not_or] using hskip)]
      obtain ⟨hnext, hrecord⟩ := scanByte_visible m hholds hlf hskip
      refine ⟨⟨line ++ [b], ?_, ?_, hnext⟩, ?_⟩
      · rw [List.mem_append, List.mem_singleton]
        rintro (hmem | heq)
        · exact hline hmem
        · exact hlf heq.symm
      · obtain ⟨front, hfront⟩ := hsuffix
        exact ⟨front, by rw [hvisible, ← hfront, List.append_assoc]⟩
      · intro hfound
        rw [seen_of_record hrecord] at hfound
        exact (hseen hfound).trans hgrows

/-- So it is for a packet. -/
theorem scanConsole_shows {marker : Option (List Byte)} {stream : List Byte} {c : Console}
    (packet : List Byte) (hc : Shows marker stream c) :
    Shows marker (stream ++ packet) (scanConsole marker packet c) := by
  cases marker with
  | none => exact hc
  | some m =>
    show Shows (some m) (stream ++ packet) (packet.foldl (scanByte m) c)
    induction packet generalizing stream c with
    | nil =>
      rw [List.append_nil]
      exact hc
    | cons b packet ih =>
      have hnext := ih (scanByte_shows b hc)
      rw [List.append_assoc] at hnext
      exact hnext

/-- So it is for the last line. -/
theorem checkLastLine_shows {marker : Option (List Byte)} {stream : List Byte} {c : Console}
    (hc : Shows marker stream c) : Shows marker stream (checkLastLine marker c) := by
  cases marker with
  | none => exact hc
  | some m =>
    unfold checkLastLine
    dsimp only
    split
    · exact checkLine_shows hc
    · exact hc

theorem mainStep_shows {marker : Option (List Byte)} {stream : List Byte} {timeout : Int} (now : Int)
    {s : System} (hs : Shows marker stream s.console) :
    Shows marker stream (mainStep marker timeout now s).console := by
  unfold mainStep
  split
  · split <;> exact hs
  · split <;> exact hs
  · split
    · exact hs
    · split <;> exact hs
  · exact checkLastLine_shows hs
  · exact checkLastLine_shows hs
  · exact hs

/-! ## The steps of the process -/

/-- What was received is printed first and scanned then, one packet after the other. -/
structure Process.Copies (i : Invocation) (p : Process σ κ) : Prop where
  printed : p.stdout ++ p.consolePhase.unprinted = p.received.flatten
  scanned : p.packets ++ p.consolePhase.unscanned = p.received
  shows : Shows i.marker p.packets.flatten p.console

/-- `main` leaves what the console thread has received and printed. -/
structure Quiet (p p' : Process σ κ) : Prop where
  stdout : p'.stdout = p.stdout
  received : p'.received = p.received
  packets : p'.packets = p.packets
  phase : p'.consolePhase = p.consolePhase

theorem shake_quiet (now : Int) (stack : List Byte) (p : Process σ κ) :
    Quiet p (p.shake e now stack) ∧ (p.shake e now stack).console = p.console := by
  unfold Process.shake
  dsimp only
  split
  · exact ⟨⟨rfl, rfl, rfl, rfl⟩, rfl⟩
  · exact ⟨⟨rfl, rfl, rfl, rfl⟩, rfl⟩

/-- Of the console, `main` changes what the main loop does. -/
theorem main_quiet (now : Int) (stack : List Byte) (p : Process σ κ) :
    Quiet p (p.main k e i now stack) ∧
      ((p.main k e i now stack).console = p.console ∨
        (p.main k e i now stack).console = (mainStep i.marker i.wait now p.system).console) := by
  unfold Process.main
  cases hpc : p.pc with
  | starting =>
    dsimp only
    obtain ⟨c, -, ⟨-, heq⟩ | ⟨-, heq⟩⟩ := connect_cases k i now p
    · rw [heq]
      exact ⟨⟨rfl, rfl, rfl, rfl⟩, Or.inl rfl⟩
    · rw [heq]
      exact ⟨⟨rfl, rfl, rfl, rfl⟩, Or.inl rfl⟩
  | handshaking =>
    obtain ⟨hquiet, hconsole⟩ := shake_quiet (e := e) now stack p
    dsimp only
    rcases handshake_cases (e := e) now stack p with
      ⟨result, -, -, heq⟩ | ⟨result, -, -, heq⟩ | ⟨-, heq⟩
    · rw [heq]
      exact ⟨⟨hquiet.stdout, hquiet.received, hquiet.packets, hquiet.phase⟩, Or.inl hconsole⟩
    · rw [heq]
      exact ⟨⟨hquiet.stdout, hquiet.received, hquiet.packets, hquiet.phase⟩, Or.inl hconsole⟩
    · rw [heq]
      exact ⟨hquiet, Or.inl hconsole⟩
  | performing =>
    dsimp only
    rcases perform_cases e i stack p with ⟨-, heq⟩ | ⟨c, -, -, heq⟩ | ⟨c, -, -, heq⟩
    · rw [heq]
      exact ⟨⟨rfl, rfl, rfl, rfl⟩, Or.inl rfl⟩
    · rw [heq]
      exact ⟨⟨rfl, rfl, rfl, rfl⟩, Or.inl rfl⟩
    · rw [heq]
      exact ⟨⟨rfl, rfl, rfl, rfl⟩, Or.inl rfl⟩
  | looping =>
    have hquiet : Quiet p (loopStep k i now p) := by
      unfold loopStep Process.closeCommand
      split
      · exact ⟨rfl, rfl, rfl, rfl⟩
      · exact ⟨rfl, rfl, rfl, rfl⟩
    dsimp only
    rcases mainloop_cases k i now p with ⟨status, -, heq⟩ | ⟨-, heq⟩
    · rw [heq]
      exact ⟨⟨hquiet.stdout, hquiet.received, hquiet.packets, hquiet.phase⟩, Or.inr rfl⟩
    · rw [heq]
      exact ⟨hquiet, Or.inr rfl⟩
  | leaving status => exact ⟨⟨rfl, rfl, rfl, rfl⟩, Or.inl rfl⟩
  | exited status => exact ⟨⟨rfl, rfl, rfl, rfl⟩, Or.inl rfl⟩

theorem Quiet.copies (hquiet : Quiet p p') (hp : p.Copies i)
    (hshows : Shows i.marker p.packets.flatten p'.console) : p'.Copies i := by
  obtain ⟨hprinted, hscanned, -⟩ := hp
  constructor
  · rw [hquiet.stdout, hquiet.phase, hquiet.received]
    exact hprinted
  · rw [hquiet.packets, hquiet.phase, hquiet.received]
    exact hscanned
  · rw [hquiet.packets]
    exact hshows

/-- Every step of the process keeps what is printed a copy of what was received. -/
theorem ProcessStep.copies (hstep : ProcessStep h k e i p p') (hp : p.Copies i) : p'.Copies i := by
  cases hstep with
  | main now stack _ hlive =>
    obtain ⟨hquiet, hconsole | hconsole⟩ := main_quiet (k := k) (e := e) (i := i) now stack p
    · refine hquiet.copies hp ?_
      rw [hconsole]
      exact hp.shows
    · refine hquiet.copies hp ?_
      rw [hconsole]
      exact mainStep_shows now hp.shows
  | receive datagram _ hruns hphase =>
    obtain ⟨hprinted, hscanned, hshows⟩ := hp
    rw [hphase] at hprinted hscanned
    refine ⟨?_, ?_, hshows⟩
    · rw [List.flatten_append, List.flatten_singleton, ← hprinted]
      exact congrArg (· ++ _) (List.append_nil _).symm
    · rw [← hscanned]
      exact congrArg (· ++ _) (List.append_nil _).symm
  | print packet _ hruns hphase =>
    obtain ⟨hprinted, hscanned, hshows⟩ := hp
    rw [hphase] at hprinted hscanned
    exact ⟨(List.append_nil _).trans hprinted, hscanned, hshows⟩
  | scan packet _ hruns hphase =>
    obtain ⟨hprinted, hscanned, hshows⟩ := hp
    rw [hphase] at hprinted hscanned
    refine ⟨hprinted, (List.append_nil _).trans hscanned, ?_⟩
    rw [List.flatten_append, List.flatten_singleton]
    exact scanConsole_shows packet hshows
  | consoleActivity now _ hruns hphase =>
    obtain ⟨hprinted, hscanned, hshows⟩ := hp
    rw [hphase] at hprinted hscanned
    exact ⟨hprinted, hscanned, hshows⟩
  | serve sock kind packet _ hruns hkind hforeign => exact ⟨hp.printed, hp.scanned, hp.shows⟩
  | requestActivity now _ hruns => exact ⟨hp.printed, hp.scanned, hp.shows⟩
  | lost _ hruns => exact ⟨hp.printed, hp.scanned, hp.shows⟩
  | world host sock _ hstarted => exact ⟨hp.printed, hp.scanned, hp.shows⟩

/-- What has been scanned has been printed. -/
theorem Process.Copies.prefix_stdout (hp : p.Copies i) : p.packets.flatten <+: p.stdout := by
  obtain ⟨hprinted, hscanned, -⟩ := hp
  rw [← hscanned, List.flatten_append] at hprinted
  cases hphase : p.consolePhase with
  | waiting =>
    rw [hphase] at hprinted
    refine ⟨[], ?_⟩
    rw [← List.append_nil p.stdout]
    exact hprinted.symm
  | received packet =>
    rw [hphase] at hprinted
    have hflat : [packet].flatten = packet := List.flatten_singleton
    rw [show (ConsolePhase.received packet).unscanned = [packet] from rfl, hflat] at hprinted
    exact ⟨[], by rw [List.append_nil]; exact (List.append_cancel_right hprinted).symm⟩
  | printed packet =>
    rw [hphase] at hprinted
    refine ⟨[packet].flatten, ?_⟩
    rw [← List.append_nil p.stdout]
    exact hprinted.symm
  | scanned =>
    rw [hphase] at hprinted
    refine ⟨[], ?_⟩
    rw [← List.append_nil p.stdout]
    exact hprinted.symm

/-! ## Runs -/

/-- A marker that was seen came in the stream. -/
theorem Shows.found {marker : Option (List Byte)} {stream : List Byte} {c : Console}
    (hc : Shows marker stream c) (hseen : c.seen = true) :
    ∃ m, marker = some m ∧ m <:+: visible stream := by
  cases marker with
  | none =>
    rw [show c.seen = false from hc] at hseen
    cases hseen
  | some m => exact ⟨m, rfl, hc.2 hseen⟩

variable {host : σ} {request command : Socket} {kernel : κ}

/-- In every run, what is printed is a copy of what was received. -/
theorem ProcessRun.copies (hrun : ProcessRun h k e i (.initial host request command kernel) p) :
    p.Copies i := by
  induction hrun with
  | refl => exact ⟨rfl, rfl, shows_initial i.marker⟩
  | tail _ hstep ih => exact hstep.copies ih

/-- In every interleaving, what the client prints is what the console has received, unchanged and in
order, up to a packet that is yet to be printed. Nothing is scanned before it is printed, and when the
marker has been seen, it is in what was printed, without the bytes that the line buffer leaves out. -/
theorem console_printed (hrun : ProcessRun h k e i (.initial host request command kernel) p) :
    p.stdout ++ p.consolePhase.unprinted = p.received.flatten ∧ p.packets.flatten <+: p.stdout ∧
      (p.console.seen = true → ∃ marker, i.marker = some marker ∧ marker <:+: visible p.stdout) := by
  have hcopies := ProcessRun.copies hrun
  have hfront := hcopies.prefix_stdout
  refine ⟨hcopies.printed, hfront, ?_⟩
  intro hseen
  obtain ⟨marker, hmarker, hinfix⟩ := hcopies.shows.found hseen
  obtain ⟨rest, hrest⟩ := hfront
  refine ⟨marker, hmarker, ?_⟩
  rw [← hrest, visible_append]
  exact hinfix.trans (List.prefix_append _ _).isInfix

/-- A line with the marker is received and printed. -/
theorem console_printed_exec : ∃ p : Process Unit Int, p.stdout = execPacket ∧
    p.stdout ++ p.consolePhase.unprinted = p.received.flatten ∧ p.packets.flatten <+: p.stdout ∧
      (p.console.seen = true →
        ∃ marker, execInvocation.marker = some marker ∧ marker <:+: visible p.stdout) := by
  obtain ⟨p, hrun, -, hstdout⟩ := exec_exited
  exact ⟨p, hstdout, console_printed ((exec_main (p := execStarting) rfl).trans hrun)⟩

end Main

import Ps2Client.Fsclient.Proofs.CopyProofs
import Ps2Client.Posix.Proofs.FilesProofs
import Ps2Client.Ps2netfs.Proofs.ServerProofs

/-!
# Proofs: a server that answers

Each command of a copy is a turn of a server that answers it. A copy of one byte, in either direction,
is followed step by step.
-/

namespace Fsclient

open CMemory Network Utility Ps2netfs Posix
open Ps2link (Host HostCall HostFiles fileHost)

/-! ## Answers -/

/-- The answer of a server to a command other than `read`: the result `k`. -/
def reply (k : Word) : Answer := ⟨be32 0 ++ be16 10 ++ be32 k, []⟩

theorem reply_result (k : Word) : (reply k).result = k.toInt := by
  have hnet : net32 (be32 0 ++ be16 10 ++ (be32 k ++ [])) 6 = k := net32_be32 k rfl
  rw [List.append_nil] at hnet
  exact congrArg BitVec.toInt hnet

/-- A command with a plain answer, on a host that leaves its state alone. -/
theorem commandResult_reply (e : Endian) {c : Command} (hc : ¬ c.Refused)
    (hto : ∀ k, (reply k).IsTo c) (k : Word) {w : World HostFiles} (hw : w.sock.Writable)
    (rest : List Byte) (hin : w.sock.incoming = (reply k).bytes ++ rest) :
    (commandResult e fileHost c w).1 = k.toInt ∧
      (commandResult e fileHost c w).2.host = w.host ∧
      (commandResult e fileHost c w).2.sock.Writable ∧
      (commandResult e fileHost c w).2.sock.incoming = rest := by
  obtain ⟨s', hcall, hin', -, hw'⟩ := call_answer e hc (hto k)
    (fileHost.uninit (6 + sizeof c.fields) w.host).1 hw hin
  have hresult : commandResult e fileHost c w = ((c.told (reply k)).1, ⟨w.host, s'⟩) := by
    unfold commandResult command
    dsimp only
    rw [hcall]
    rfl
  rw [hresult]
  exact ⟨reply_result k, rfl, hw', hin'⟩

theorem open_fits {s : CStr} {flags : Word} (hrefused : ¬ (Command.open (some s) flags).Refused) :
    (Command.open (some s) flags).Fits := by
  intro t ht
  obtain rfl := List.mem_singleton.mp ht
  refine ⟨s, rfl, ?_⟩
  by_contra hlong
  refine hrefused fun t ht => ?_
  cases ht
  omega

/-! ## A copy of one byte -/

section

variable {μ : Type} {E : Ends μ} {w w₁ w₂ w₃ w₄ w₅ w₆ w₇ w₈ : μ} {fd0 fd1 : Int} {b : Byte}

theorem copyLoop_byte (hread : E.read fd0 1 w₄ = (1, [b], w₅)) (hwrite : E.write fd1 [b] w₅ = (1, w₆))
    (steps : List Step) (out : List Printed) :
    copyLoop E fd0 fd1 1 0 ⟨w₄, steps, out⟩ =
      (true, 1, ⟨w₆, steps ++ [.read 1 1 [b], .write [b] 1], out ++ [⟨"#", []⟩]⟩) := by
  have hint : toInt32 1 = 1 := by decide
  have hcount : chunk 1 0 = 1 := rfl
  have hbuffer : peek [b] 0 1 = [b] := rfl
  rw [copyLoop, if_pos (by decide)]
  simp [hcount, hint, hbuffer, Run.takeRead, Run.take, Run.printf, hread, hwrite, writeLoop,
    copyLoop_end]

/-- The steps of a copy of one byte from a source of one byte, when none of them fails. -/
theorem copy_byte (source destination : CStr) (h0 : 0 ≤ fd0) (h1 : 0 ≤ fd1)
    (hopen : E.openSource w = (fd0, w₁)) (hend : E.seekEnd fd0 w₁ = (1, w₂))
    (hset : E.seekSet fd0 w₂ = (0, w₃)) (hdest : E.openDestination w₃ = (fd1, w₄))
    (hread : E.read fd0 1 w₄ = (1, [b], w₅)) (hwrite : E.write fd1 [b] w₅ = (1, w₆))
    (hsource : E.closeSource fd0 w₆ = (0, w₇)) (hclose : E.closeDestination fd1 w₇ = (0, w₈)) :
    (copy E source destination w).1 = 0 ∧ (copy E source destination w).2.world = w₈ ∧
      (copy E source destination w).2.steps =
        [.openSource fd0, .seekEnd 1, .seekSet 0, .openDestination fd1, .read 1 1 [b], .write [b] 1,
          .closeSource fd0 0, .closeDestination fd1 0] := by
  have hint : toInt32 1 = 1 := by decide
  have hbody : copyBody E source destination ⟨w, [], []⟩ = (⟨fd0, fd1, 1, 0⟩, ⟨w₆,
      [.openSource fd0, .seekEnd 1, .seekSet 0, .openDestination fd1, .read 1 1 [b], .write [b] 1],
      [⟨"\n [%s --> %s]\n\n  Progress: ", [.string source, .string destination]⟩, ⟨"#", []⟩]⟩) := by
    simp [copyBody, Run.take, Run.printf, hint, hopen, hend, hset, hdest, Int.not_lt.mpr h0,
      Int.not_lt.mpr h1, copyLoop_byte hread hwrite]
  unfold copy
  rw [hbody]
  simp [copyDone, closeEnd, Run.take, Run.printf, h0, h1, hsource, hclose]

end

/-! ## Turns of the server -/

/-- The server has taken what was sent between `w₀` and `w`, and is ready for more. -/
def Serving (w₀ : World HostFiles) (fs₀ : ServerFiles) (w : World HostFiles) (fs : ServerFiles) :
    Prop :=
  ∃ requests answers, w.sock.sent = w₀.sock.sent ++ requests ∧
    w₀.sock.incoming = answers ++ w.sock.incoming ∧
    ∀ requests' answers' fs', Conversation requests' answers' fs fs' →
      Conversation (requests ++ requests') (answers ++ answers') fs₀ fs'

section

variable {w₀ w w' : World HostFiles} {fs₀ fs fs' : ServerFiles}

theorem Serving.start (w₀ : World HostFiles) (fs₀ : ServerFiles) : Serving w₀ fs₀ w₀ fs₀ :=
  ⟨[], [], (List.append_nil _).symm, rfl, fun _ _ _ hconversation => hconversation⟩

theorem Serving.served (hserving : Serving w₀ fs₀ w fs) : Served w₀ w fs₀ fs := by
  obtain ⟨requests, answers, hsent, hincoming, hmore⟩ := hserving
  have hconversation := hmore [] [] fs (.quiet fs)
  rw [List.append_nil, List.append_nil] at hconversation
  exact ⟨requests, answers, hsent, hincoming, hconversation⟩

/-- The server answers a command with a turn. -/
theorem Serving.command (e : Endian) {c : Command} {r : Ps2netfs.Received} {a : Answer}
    {rest : List Byte} (hserving : Serving w₀ fs₀ w fs) (hw : w.sock.Writable)
    (hin : w.sock.incoming = a.bytes ++ rest) (hrefused : ¬ c.Refused) (hfits : c.Fits)
    (hnumber : c.misnumbered = false) (hmeant : c.meant = some r) (ha : a.IsFor r)
    (hturn : Turn r a fs fs') :
    ∃ w', command e fileHost c w = ((c.told a).1, (c.told a).2, w') ∧ w'.host = w.host ∧
      w'.sock.Writable ∧ w'.sock.incoming = rest ∧ Serving w₀ fs₀ w' fs' := by
  obtain ⟨requests, answers, hsent, hincoming, hmore⟩ := hserving
  have hto := (meant_shape hmeant).2 a ha
  obtain ⟨s, hcall, hrest, hpacket, hwritable⟩ := call_answer e hrefused hto
    (fileHost.uninit (6 + sizeof c.fields) w.host).1 hw hin
  refine ⟨⟨w.host, s⟩, ?_, rfl, hwritable, hrest,
    requests ++ (c.packet e (fileHost.uninit (6 + sizeof c.fields) w.host).1 ++ c.data),
    answers ++ a.bytes, ?_, ?_, ?_⟩
  · unfold Fsclient.command
    dsimp only
    rw [hcall]
    rfl
  · rw [← List.append_assoc, ← hsent]
    exact hpacket
  · rw [hincoming, hin, hrest, List.append_assoc]
  · intro requests' answers' fs₂ hlater
    rw [List.append_assoc, List.append_assoc, List.append_assoc]
    exact hmore _ _ _ (.of_turn hfits hnumber hmeant ha hturn hlater)

end

/-- A command of the copy whose result is all it gives. -/
theorem Serving.result (e : Endian) {c : Command} {r : Ps2netfs.Received} {k : Word}
    {rest : List Byte} {w₀ w : World HostFiles} {fs₀ fs fs' : ServerFiles}
    (hserving : Serving w₀ fs₀ w fs) (hw : w.sock.Writable)
    (hin : w.sock.incoming = (reply k).bytes ++ rest) (hrefused : ¬ c.Refused) (hfits : c.Fits)
    (hnumber : c.misnumbered = false) (hmeant : c.meant = some r) (ha : (reply k).IsFor r)
    (hturn : Turn r (reply k) fs fs') :
    ∃ w', commandResult e fileHost c w = (k.toInt, w') ∧ w'.host = w.host ∧ w'.sock.Writable ∧
      w'.sock.incoming = rest ∧ Serving w₀ fs₀ w' fs' := by
  obtain ⟨w', hcommand, hhost, hw', hrest, hserving'⟩ := hserving.command e hw hin hrefused hfits
    hnumber hmeant ha hturn
  refine ⟨w', ?_, hhost, hw', hrest, hserving'⟩
  unfold commandResult
  rw [hcommand]
  exact congrArg (Prod.mk · w') (reply_result k)

/-- A host where every path leads to one file. -/
def filesOf (content : List Byte) : HostFiles := ⟨fun _ => some 0, fun _ => content, fun _ => none⟩

def uploadWorld : World HostFiles :=
  ⟨filesOf [7], .receiving ((reply 1).bytes ++ ((reply 1).bytes ++ ((reply 0).bytes ++ [])))⟩

/-- The files of the server after a file of one byte has come. -/
def uploaded : ServerFiles := ((Files.open (filesOf []) 0 1 false false true).write 1 [7]).close 1

theorem copyto_byte : (copyto .little fileHost pathX pathX uploadWorld).1 = 0 ∧
    Served uploadWorld (copyto .little fileHost pathX pathX uploadWorld).2.world (filesOf [])
      uploaded := by
  set E := copytoEnds .little fileHost pathX pathX
  have hopen : E.openSource uploadWorld = (3, (E.openSource uploadWorld).2) := Prod.ext rfl rfl
  set w₁ := (E.openSource uploadWorld).2
  have hend : E.seekEnd 3 w₁ = (1, (E.seekEnd 3 w₁).2) := Prod.ext rfl rfl
  set w₂ := (E.seekEnd 3 w₁).2
  have hset : E.seekSet 3 w₂ = (0, (E.seekSet 3 w₂).2) := Prod.ext rfl rfl
  set w₃ := (E.seekSet 3 w₂).2
  have hserving : Serving uploadWorld (filesOf []) w₃ (filesOf []) := .start ..
  obtain ⟨w₄, hdest, hhost, hw, hin, hserving⟩ := hserving.result .little (k := 1)
    (c := .open (some pathX) (OPEN_WRITE ||| OPEN_CREATE ||| OPEN_TRUNCATE)) List.not_mem_nil
    (incoming_receiving _) (by decide) (open_fits (by decide)) rfl rfl ⟨rfl, rfl⟩
    (.served rfl (.opened _ _ _ 1 rfl) (reply_result 1))
  obtain ⟨host, sock⟩ := w₄
  obtain rfl : host = _ := hhost
  have hread : E.read 3 1 ⟨w₃.host, sock⟩ = (1, [7], (E.read 3 1 ⟨w₃.host, sock⟩).2.2) :=
    Prod.ext rfl (Prod.ext rfl rfl)
  set w₅ := (E.read 3 1 ⟨w₃.host, sock⟩).2.2
  have hserving' : Serving uploadWorld (filesOf []) w₅ _ := hserving
  obtain ⟨w₆, hwrite, hhost₆, hw₆, hin₆, hserving₆⟩ := hserving'.result .little (k := 1)
    (c := .write (.ofInt 32 1) (.ofNat 32 1) [7]) hw hin id nofun rfl rfl ⟨rfl, rfl⟩
    (.served rfl (.written 1 (open_opened ..) (by decide)) (reply_result 1))
  obtain ⟨host, sock⟩ := w₆
  obtain rfl : host = _ := hhost₆
  obtain ⟨w₈, hclose, -, -, -, hserving₈⟩ := Serving.result (w := ⟨w₅.host.close 3, sock⟩) .little
    (k := 0) (c := .close (.ofInt 32 1)) hserving₆ hw₆ hin₆ id nofun rfl rfl ⟨rfl, rfl⟩
    (.served rfl (.closed _ 0 _) (reply_result 0))
  obtain ⟨hstatus, hworld, -⟩ := copy_byte pathX pathX (by decide) (by decide) hopen hend hset hdest
    hread hwrite rfl hclose
  have hserved := hserving₈.served
  rw [← hworld] at hserved
  exact ⟨hstatus, hserved⟩

/-- A response of the server to a read. -/
def dataReply (data : List Byte) : Answer :=
  ⟨be32 0 ++ be16 14 ++ be32 (.ofNat 32 data.length) ++ be32 (.ofNat 32 data.length), data⟩

def downloadWorld : World HostFiles :=
  ⟨filesOf [1, 2], .receiving ((reply 1).bytes ++ ((reply 1).bytes ++ ((reply 0).bytes ++
    ((dataReply [7]).bytes ++ ((reply 0).bytes ++ [])))))⟩

theorem dataReply_result : (dataReply [7]).result = 1 := by decide

theorem copyfrom_byte :
    let r := (copyfrom .little fileHost pathX pathX downloadWorld).2
    (copyfrom .little fileHost pathX pathX downloadWorld).1 = 0 ∧
      r.steps = [.openSource 1, .seekEnd 1, .seekSet 0, .openDestination 3, .read 1 1 [7],
        .write [7] 1, .closeSource 1 0, .closeDestination 3 0] ∧
      ∃ fs₁, Served downloadWorld r.world uploaded fs₁ := by
  intro r
  set E := copyfromEnds .little fileHost pathX pathX
  have hserving : Serving downloadWorld uploaded downloadWorld uploaded := .start ..
  obtain ⟨w₁, hopen, hhost₁, hw₁, hin₁, hserving₁⟩ := hserving.result .little (k := 1)
    (c := .open (some pathX) OPEN_READ) List.not_mem_nil
    (incoming_receiving _) (by decide) (open_fits (by decide)) rfl rfl ⟨rfl, rfl⟩
    (.served rfl (.opened _ _ _ 1 rfl) (reply_result 1))
  obtain ⟨w₂, hend, hhost₂, hw₂, hin₂, hserving₂⟩ := hserving₁.result .little (k := 1)
    (c := .lseek (.ofInt 32 1) 0 LSEEK_END) hw₁ hin₁ id nofun rfl rfl ⟨rfl, rfl⟩
    (.served rfl (.sought _ _ _ _) (reply_result 1))
  obtain ⟨w₃, hset, hhost₃, hw₃, hin₃, hserving₃⟩ := hserving₂.result .little (k := 0)
    (c := .lseek (.ofInt 32 1) 0 LSEEK_SET) hw₂ hin₂ id nofun rfl rfl ⟨rfl, rfl⟩
    (.served rfl (.sought _ _ _ _) (reply_result 0))
  obtain ⟨host, sock⟩ := w₃
  obtain rfl : host = downloadWorld.host := hhost₃.trans (hhost₂.trans hhost₁)
  have hdest : E.openDestination ⟨downloadWorld.host, sock⟩ =
      (3, (E.openDestination ⟨downloadWorld.host, sock⟩).2) := Prod.ext rfl rfl
  set w₄ := (E.openDestination ⟨downloadWorld.host, sock⟩).2
  have hserving₄ : Serving downloadWorld uploaded w₄ _ := hserving₃
  obtain ⟨w₅, hread, hhost₅, hw₅, hin₅, hserving₅⟩ := hserving₄.command .little (a := dataReply [7])
    (c := .read (.ofInt 32 1) (.ofInt 32 1)) hw₃ hin₃ (by decide) nofun rfl rfl
    ⟨rfl, by rw [dataReply_result]; rfl, by rw [dataReply_result]; decide⟩
    (.served rfl (.read 1 rfl rfl (by decide) nofun) ⟨dataReply_result, rfl⟩)
  obtain ⟨host, sock⟩ := w₅
  obtain rfl : host = w₄.host := hhost₅
  have hwrite : E.write 3 [7] ⟨w₄.host, sock⟩ = (1, (E.write 3 [7] ⟨w₄.host, sock⟩).2) :=
    Prod.ext rfl rfl
  set w₆ := (E.write 3 [7] ⟨w₄.host, sock⟩).2
  have hserving₆ : Serving downloadWorld uploaded w₆ _ := hserving₅
  obtain ⟨w₇, hclose, -, -, -, hserving₇⟩ := hserving₆.result .little (k := 0)
    (c := .close (.ofInt 32 1)) hw₅ hin₅ id nofun rfl rfl ⟨rfl, rfl⟩
    (.served rfl (.closed _ 0 _) (reply_result 0))
  rw [Command.told, dataReply_result] at hread
  obtain ⟨hstatus, hworld, hsteps⟩ := copy_byte pathX pathX (by decide) (by decide) hopen hend hset
    hdest hread hwrite hclose rfl
  have hserved : Served downloadWorld (E.closeDestination 3 w₇).2 uploaded _ := hserving₇.served
  have hlast : r.world = (E.closeDestination 3 w₇).2 := hworld
  rw [← hlast] at hserved
  exact ⟨hstatus, hsteps, _, hserved⟩

end Fsclient

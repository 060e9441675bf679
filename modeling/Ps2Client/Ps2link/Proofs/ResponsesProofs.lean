import Ps2Client.Ps2link.Framing
import Ps2Client.Ps2link.Proofs.OperationsProofs
import Ps2Client.Network.Proofs.TransferProofs

/-!
# Proofs: every operation sends one response
-/

namespace Ps2link

open CMemory Network Utility

variable {σ : Type} (h : Host σ) (e : Endian)

/-! ## Sending a response -/

/-- `s'` is reached from `s` by sending a response of kind `k`, and by nothing else on the
connection. -/
structure Responds (k : Kind) (s s' : Client σ) : Prop where
  arrivals : s'.sock.arrivals = s.sock.arrivals
  emitted : ∃ bs, IsResponse k bs ∧ Emitted s.sock s'.sock bs
  crashed : s'.crashed = s.crashed

/-- A response depends only on the connection. -/
theorem Responds.of_eq {k : Kind} {s₁ s s' : Client σ} (hr : Responds k s₁ s')
    (hsock : s₁.sock = s.sock) (hcrashed : s₁.crashed = s.crashed) : Responds k s s' where
  arrivals := hr.arrivals.trans (congrArg _ hsock)
  emitted := by
    rw [← hsock]
    exact hr.emitted
  crashed := hr.crashed.trans hcrashed

/-- The header of a response in network byte order, -/
theorem headerBytes_eq (number : Word) (length : Half) :
    headerBytes e number length = be32 number ++ be16 length := by
  rw [headerBytes, host32_htonl, host16_htons]

/-- and an integer of it. -/
theorem intBytes_eq (value : Int) : intBytes e value = be32 (.ofInt 32 value) := host32_htonl e _

/-- Sending takes nothing off the connection. -/
theorem send_arrivals (buffer : List Byte) (size : Int) (s : Client σ) :
    (s.send buffer size).2.sock.arrivals = s.sock.arrivals :=
  networkSend_arrivals s.sock buffer size

/-- Sending a whole packet of the size of its struct. -/
theorem send_packet {k : Kind} {number : Word} {length : Half} {fields : List Byte} (size : Int)
    (hk : k ≠ .read) (hnumber : number = k.request + 1) (hlength : length = .ofNat 16 k.responseSize)
    (hsize : size.toNat = k.responseSize) (hfields : 6 + fields.length = k.responseSize)
    (s : Client σ) :
    Responds k s (s.send (headerBytes e number length ++ fields) size).2 where
  arrivals := send_arrivals ..
  crashed := rfl
  emitted := by
    have hall : headerBytes e number length ++ fields =
        be32 (k.request + 1) ++ (be16 (.ofNat 16 k.responseSize) ++ (fields ++ [])) := by
      rw [headerBytes_eq, hnumber, hlength, List.append_assoc, List.append_nil]
    have hlen : (headerBytes e number length ++ fields).length = k.responseSize := by
      rw [hall]
      simp
      omega
    refine ⟨_, ⟨fields, [], hall, hfields, by simp [hk]⟩, ?_⟩
    have hsent := networkSend_emitted s.sock (headerBytes e number length ++ fields) hsize
    rw [← hlen, peek_self] at hsent
    exact hsent

/-- A response with only a result is sent as far as the connection takes it. -/
theorem responseResult_emitted (number : Word) (result : Int) (s : Client σ) :
    Emitted s.sock (responseResult e number result s).2.sock
      (be32 number ++ (be16 10 ++ be32 (.ofInt 32 result))) := by
  have hsent := networkSend_emitted s.sock (headerBytes e number 10 ++ intBytes e result)
    (show (10 : Int).toNat = 10 from rfl)
  have hlen : (headerBytes e number 10 ++ intBytes e result).length = 10 := by
    simp [headerBytes_eq, intBytes_eq]
  rw [← hlen, peek_self] at hsent
  rw [← List.append_assoc, ← headerBytes_eq e, ← intBytes_eq e]
  exact hsent

/-- A response with a result alone. -/
theorem responseResult_responds (k : Kind) {number : Word} {result : Int} {s₁ s : Client σ}
    (hsize : k.responseSize = 10) (hnumber : number = k.request + 1)
    (hsock : s₁.sock = s.sock) (hcrashed : s₁.crashed = s.crashed) :
    Responds k s (responseResult e number result s₁).2 := by
  have hread : k ≠ .read := by
    rintro rfl
    cases hsize
  have hresponse : IsResponse k (be32 number ++ (be16 10 ++ be32 (.ofInt 32 result))) := by
    refine ⟨be32 (.ofInt 32 result), [], ?_, ?_, ?_⟩
    · rw [hnumber, hsize, List.append_nil]
      rfl
    · rw [be32_length, hsize]
    · rw [if_neg hread]
      rfl
  exact Responds.of_eq ⟨send_arrivals .., ⟨_, hresponse, responseResult_emitted e number result s₁⟩,
    rfl⟩ hsock hcrashed

/-- A time has 8 bytes, also where it is what the stack had. -/
theorem timeField_length (stack : List Byte) (off : Nat) (time : Option (List Byte)) :
    (timeField stack off time).length = 8 := by
  cases time <;> exact peek_length ..

/-- A directory entry without its name has 44 bytes. -/
theorem entryBytes_length (stack : List Byte) (result : Int) (d : Entry) :
    (entryBytes e stack result d).length = 44 := by
  simp [entryBytes, intBytes_eq, host32_htonl, timeField_length]

/-- The response to a READDIR, with the name or with zeros. -/
theorem responseReaddir_responds {result : Int} {d : Entry} {name : Option (List Byte)}
    {s₁ s : Client σ} (hsock : s₁.sock = s.sock) (hcrashed : s₁.crashed = s.crashed) :
    Responds .readdir s (responseReaddir h e result d name s₁).2 := by
  refine Responds.of_eq ?_ hsock hcrashed
  unfold responseReaddir
  dsimp only
  rw [List.append_assoc]
  refine (send_packet (k := .readdir) e 306 (by decide) rfl rfl rfl ?_
    (s₁.uninit h 306).2).of_eq rfl rfl
  rw [List.length_append, entryBytes_length]
  cases name with
  | none => rw [peek_length]; rfl
  | some name => rw [snprintf_length (by decide) (peek_length ..)]; rfl

/-- The response to a GETSTAT. -/
theorem responseGetstat_responds {result : Int} {d : Entry} {s₁ s : Client σ}
    (hsock : s₁.sock = s.sock) (hcrashed : s₁.crashed = s.crashed) :
    Responds .getstat s (responseGetstat h e result d s₁).2 := by
  refine Responds.of_eq ?_ hsock hcrashed
  unfold responseGetstat
  refine (send_packet (k := .getstat) e 50 (by decide) rfl rfl rfl ?_
    (s₁.uninit h 50).2).of_eq rfl rfl
  rw [entryBytes_length]
  rfl

/-- The response to a read, and after it as much data as its size says. -/
theorem readResponse_responds (data : List Byte) {size : Int} (hsize : toInt32 size = size)
    (s : Client σ) :
    Responds .read s ((responseRead e size size s).2.send data size).2 where
  arrivals := (send_arrivals ..).trans (send_arrivals ..)
  crashed := rfl
  emitted := by
    have hpacket := networkSend_emitted s.sock
      (headerBytes e RESPONSE_READ 14 ++ intBytes e size ++ intBytes e size)
      (show (14 : Int).toNat = 14 from rfl)
    have hdata := networkSend_emitted (responseRead e size size s).2.sock data
      (show size.toNat = size.toNat from rfl)
    refine ⟨_, ?_, hpacket.trans hdata⟩
    have hlen : (headerBytes e RESPONSE_READ 14 ++ intBytes e size ++ intBytes e size).length = 14 := by
      simp [headerBytes_eq, intBytes_eq]
    refine ⟨intBytes e size ++ intBytes e size, peek data 0 size.toNat, ?_, ?_, ?_⟩
    · nth_rewrite 1 [← hlen]
      rw [peek_self, headerBytes_eq]
      simp only [List.append_assoc]
      rfl
    · rw [intBytes_eq]
      rfl
    · have hfield : net32 (intBytes e size ++ (intBytes e size ++ [])) 4 = .ofInt 32 size := by
        rw [intBytes_eq]
        exact net32_be32 _ (be32_length _)
      rw [List.append_nil] at hfield
      rw [if_pos rfl, hfield, peek_length]
      exact congrArg Int.toNat hsize.symm

/-- The result of `read` fits an `int`. -/
theorem toInt32_readResult (got : Option (List Byte)) :
    toInt32 (readResult got) = readResult got := by
  cases got with
  | none => rfl
  | some data => simp [readResult, toInt32]

/-- The response to a READ, with its data behind it. -/
theorem readAndSend_responds {fd size : Word} {s₁ s : Client σ} (hsock : s₁.sock = s.sock)
    (hcrashed : s₁.crashed = s.crashed) : Responds .read s (readAndSend h e fd size s₁).2 := by
  refine Responds.of_eq ?_ hsock hcrashed
  unfold readAndSend
  dsimp only
  refine Responds.of_eq (readResponse_responds e _ (toInt32_readResult _) _) rfl rfl

/-- The response to a READ without memory. -/
theorem readFailed_responds {s₁ s : Client σ} (hsock : s₁.sock = s.sock)
    (hcrashed : s₁.crashed = s.crashed) : Responds .read s (responseRead e (-1) (-1) s₁).2 := by
  refine Responds.of_eq ?_ hsock hcrashed
  have hr := readResponse_responds e [] (show toInt32 (-1) = -1 by decide) s₁
  have hnone : ((responseRead e (-1) (-1) s₁).2.send [] (-1)).2 = (responseRead e (-1) (-1) s₁).2 := by
    unfold Client.send networkSend
    rw [sendLoop]
    rfl
  rwa [hnone] at hr

/-! ## Operations -/

/-- The times of a file are undefined exactly when `localtime` fails for one of them. -/
theorem convertStat_eq_none (ctime atime mtime : List Byte) (st : Stat) :
    convertStat h ctime atime mtime st = none ↔ ¬ TimesDefined h st := by
  unfold convertStat TimesDefined
  cases h.localtime st.ctime with
  | none => simp
  | some c =>
    cases h.localtime st.atime with
    | none => simp
    | some a => cases h.localtime st.mtime <;> simp

/-- The end of an operation other than `write`: it has sent one response, or it ran into one of the
calls it does not check. -/
def Concludes (op : Operation) (s s' : Client σ) : Prop :=
  Responds op.kind s s' ∨ ¬ op.Defined h s ∧ s'.crashed = true ∧ s'.sock = s.sock

/-- An OPENDIR responds, unless there is no memory for the copy of its path. -/
theorem performOpendir_concludes (path : List Byte) (s : Client σ) :
    Concludes h (.opendir path) s (performOpendir h e path s).2 := by
  unfold performOpendir
  dsimp only
  split
  · rename_i hdir
    split
    · rename_i i hfree
      unfold opendirAt
      dsimp only
      split
      · rename_i hcopy
        refine .inr ⟨fun hdef => ?_, rfl, rfl⟩
        exact hdef hdir (by rw [hfree]; simp) hcopy
      · exact .inl (responseResult_responds e .opendir rfl rfl rfl rfl)
    · exact .inl (responseResult_responds e .opendir rfl rfl rfl rfl)
  · exact .inl (responseResult_responds e .opendir rfl rfl rfl rfl)

/-- A READDIR responds, unless a time is undefined or the full name is too long. -/
theorem performReaddir_concludes (dd : Word) (s : Client σ) :
    Concludes h (.readdir dd) s (performReaddir h e dd s).2 := by
  unfold performReaddir
  split
  · exact .inl (responseReaddir_responds h e rfl rfl)
  · rename_i i dir hslot
    dsimp only
    split
    · exact .inl (responseReaddir_responds h e rfl rfl)
    · rename_i name hname
      unfold readdirEntry
      split
      · rename_i hlong
        refine .inr ⟨fun hdef => ?_, rfl, rfl⟩
        exact absurd (hdef i dir name hslot hname).1 (Nat.not_lt_of_le hlong)
      · dsimp only
        split
        · exact .inl (responseReaddir_responds h e rfl rfl)
        · rename_i hnull
          refine .inr ⟨fun hdef => ?_, rfl, rfl⟩
          exact (convertStat_eq_none ..).mp hnull (hdef i dir name hslot hname).2

/-- A GETSTAT responds, unless a time is undefined. -/
theorem performGetstat_concludes (path : List Byte) (s : Client σ) :
    Concludes h (.getstat path) s (performGetstat h e path s).2 := by
  unfold performGetstat
  dsimp only
  split
  · exact .inl (responseGetstat_responds h e rfl rfl)
  · rename_i st hst
    split
    · exact .inl (responseGetstat_responds h e rfl rfl)
    · rename_i hnull
      refine .inr ⟨fun hdef => ?_, rfl, rfl⟩
      exact (convertStat_eq_none ..).mp hnull (hdef st hst)

/-- Every operation but WRITE responds, or it is not defined. -/
theorem perform_concludes (op : Operation) (hop : op.kind ≠ .write) (s : Client σ) :
    Concludes h op s (op.perform h e s).2 := by
  cases op with
  | «open» path flags =>
    refine .inl ?_
    simp only [Operation.perform, performOpen]
    split
    · exact responseResult_responds e .open rfl rfl rfl rfl
    · split <;> exact responseResult_responds e .open rfl rfl rfl rfl
  | close fd =>
    refine .inl ?_
    simp only [Operation.perform, performClose]
    split <;> exact responseResult_responds e .close rfl rfl rfl rfl
  | read fd size =>
    refine .inl ?_
    simp only [Operation.perform, performRead]
    split
    · split
      · exact readFailed_responds e rfl rfl
      · exact readAndSend_responds h e rfl rfl
    · exact readAndSend_responds h e rfl rfl
  | write fd size => exact absurd rfl hop
  | lseek fd offset whence => exact .inl (responseResult_responds e .lseek rfl rfl rfl rfl)
  | opendir path => exact performOpendir_concludes ..
  | closedir dd =>
    refine .inl ?_
    simp only [Operation.perform, performClosedir]
    split <;> exact responseResult_responds e .closedir rfl rfl rfl rfl
  | readdir dd => exact performReaddir_concludes ..
  | remove path => exact .inl (responseResult_responds e .remove rfl rfl rfl rfl)
  | mkdir path mode => exact .inl (responseResult_responds e .mkdir rfl rfl rfl rfl)
  | rmdir path => exact .inl (responseResult_responds e .rmdir rfl rfl rfl rfl)
  | getstat path => exact performGetstat_concludes ..

end Ps2link

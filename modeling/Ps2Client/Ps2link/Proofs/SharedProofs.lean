import Ps2Client.Ps2link.Proofs.HandshakeProofs

/-!
# Proofs: what serving a request leaves alone

The time of the last activity and the flag of a lost connection, which the main thread reads, are not
touched by the handlers.
-/

namespace Ps2link

open CMemory

variable {σ : Type} (h : Host σ) (e : Endian)

/-- What the request thread shares with the main thread. Serving a request does not touch it. -/
def Client.shared (s : Client σ) : Int × Bool := (s.activity, s.lost)

theorem performRead_shared (fd size : Word) (s : Client σ) :
    (performRead h e fd size s).2.shared = s.shared := by
  unfold performRead
  split
  · dsimp only
    split <;> rfl
  · rfl

theorem performWrite_shared (fd size : Word) (s : Client σ) :
    (performWrite h e fd size s).2.shared = s.shared := by
  have hbuffer : ∀ buffer (s : Client σ),
      (receiveAndWrite h e buffer fd size s).2.shared = s.shared := by
    intro buffer s
    unfold receiveAndWrite
    dsimp only
    split <;> rfl
  unfold performWrite
  split
  · dsimp only
    split
    · rfl
    · exact hbuffer _ _
  · exact hbuffer _ _

theorem performOpendir_shared (path : List Byte) (s : Client σ) :
    (performOpendir h e path s).2.shared = s.shared := by
  unfold performOpendir
  dsimp only
  split
  · split
    · unfold opendirAt
      dsimp only
      split <;> rfl
    · rfl
  · rfl

theorem performReaddir_shared (dd : Word) (s : Client σ) :
    (performReaddir h e dd s).2.shared = s.shared := by
  unfold performReaddir
  split
  · rfl
  · dsimp only
    split
    · rfl
    · unfold readdirEntry
      dsimp only
      split
      · rfl
      · split <;> rfl

/-- No operation changes what the main loop reads. -/
theorem perform_shared (op : Operation) (s : Client σ) :
    (op.perform h e s).2.shared = s.shared := by
  cases op with
  | «open» path flags =>
    show (performOpen h e path flags s).2.shared = s.shared
    unfold performOpen
    split
    · rfl
    · dsimp only
      split <;> rfl
  | close fd =>
    show (performClose h e fd s).2.shared = s.shared
    unfold performClose
    dsimp only
    split <;> rfl
  | read fd size => exact performRead_shared h e fd size s
  | write fd size => exact performWrite_shared h e fd size s
  | lseek fd offset whence => rfl
  | opendir path => exact performOpendir_shared h e path s
  | closedir dd =>
    show (performClosedir h e dd s).2.shared = s.shared
    unfold performClosedir
    split <;> rfl
  | readdir dd => exact performReaddir_shared h e dd s
  | remove path => rfl
  | mkdir path mode => rfl
  | rmdir path => rfl
  | getstat path =>
    show (performGetstat h e path s).2.shared = s.shared
    unfold performGetstat
    dsimp only
    split
    · rfl
    · split <;> rfl

/-- Neither does a request. -/
theorem serve_shared (sock : Network.Socket) {kind : Kind} {packet : List Byte} (m : Meeting σ)
    (hkind : net32 packet 0 = kind.request) :
    (m.serve h e sock kind packet).client.shared = m.client.shared := by
  have hdispatch := dispatch_operation h.recording e { m.client with sock := sock } hkind
  show (dispatch h.recording e packet { m.client with sock := sock }).2.2.shared = _
  rw [hdispatch]
  exact perform_shared h.recording e _ _

end Ps2link

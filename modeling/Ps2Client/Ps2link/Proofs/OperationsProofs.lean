import Ps2Client.Ps2link.Operations
import Ps2Client.Utility.Proofs.FixArgumentsProofs

/-!
# Proofs: the handlers perform the decoded operation
-/

namespace Ps2link

open CMemory Network Utility

variable {σ : Type} (h : Host σ) (e : Endian)

/-! ## Kinds and packet numbers -/

theorem Kind.ofNumber_request (k : Kind) : Kind.ofNumber k.request = some k := by
  cases k <;> decide

theorem Kind.request_of_ofNumber {number : Word} {k : Kind} (hk : Kind.ofNumber number = some k) :
    number = k.request := by
  have := List.find?_some hk
  exact (beq_iff_eq.mp this).symm

theorem Kind.ofNumber_eq_none {number : Word} (hn : Kind.ofNumber number = none) (k : Kind) :
    number ≠ k.request := by
  intro heq
  rw [heq, Kind.ofNumber_request] at hn
  cases hn

/-! ## Fixing the path in the packet -/

theorem byteAt_fixPathAt (m : List Byte) {off i : Nat} (hi : i < off) :
    byteAt (fixPathAt m off) i = byteAt m i := by
  rw [fixPathAt, byteAt_append_left _ _ (by simpa using hi)]
  simp [peek, byteAt, List.getD_eq_getElem?_getD, hi]

theorem cstr_fixPathAt (m : List Byte) (off : Nat) :
    cstr ((fixPathAt m off).drop off) = pathArgument m off := by
  rw [fixPathAt, List.drop_left' (peek_length ..), cstr_fixPathname, pathArgument]

theorem argument_eq (m : List Byte) (off : Nat) : argument e m off = net32 m off :=
  ntohl_load32 e m off

theorem net32_fixPathAt (m : List Byte) : net32 (fixPathAt m 10) 6 = net32 m 6 :=
  net32_congr fun i hi => byteAt_fixPathAt m (by omega)

theorem load32_fixPathAt (m : List Byte) : load32 e (fixPathAt m 10) 6 = load32 e m 6 := by
  cases e with
  | big => exact net32_fixPathAt m
  | little => rw [load32_little, load32_little, net32_fixPathAt]

/-! ## Dispatch -/

/-- The handlers in the order of the dispatch. -/
def Kind.handle (k : Kind) (packet : List Byte) (s : Client σ) : List Byte × Int × Client σ :=
  match k with
  | .open => requestOpen h e packet s
  | .close => requestClose h e packet s
  | .read => requestRead h e packet s
  | .write => requestWrite h e packet s
  | .lseek => requestLseek h e packet s
  | .opendir => requestOpendir h e packet s
  | .closedir => requestClosedir h e packet s
  | .readdir => requestReaddir h e packet s
  | .remove => requestRemove h e packet s
  | .mkdir => requestMkdir h e packet s
  | .rmdir => requestRmdir h e packet s
  | .getstat => requestGetstat h e packet s

theorem dispatch_handle {k : Kind} {packet : List Byte} (s : Client σ)
    (hk : net32 packet 0 = k.request) : dispatch h e packet s = k.handle h e packet s := by
  simp only [dispatch, ntohl_load32, hk]
  cases k <;> rfl

/-- A handler performs the operation that the packet decodes to. -/
theorem handle_operation (k : Kind) (packet : List Byte) (s : Client σ) :
    (k.handle h e packet s).2 = (k.decode e packet).perform h e s := by
  cases k <;>
    simp only [Kind.handle, Kind.decode, Operation.perform, requestOpen, requestClose, requestRead,
      requestWrite, requestLseek, requestOpendir, requestClosedir, requestReaddir, requestRemove,
      requestMkdir, requestRmdir, requestGetstat, argument_eq, cstr_fixPathAt, net32_fixPathAt,
      load32_fixPathAt]

/-- The request thread refines the decoded operations: a packet of a known kind has the effect of
the operation it decodes to. -/
theorem dispatch_operation {k : Kind} {packet : List Byte} (s : Client σ)
    (hk : net32 packet 0 = k.request) :
    (dispatch h e packet s).2 = (k.decode e packet).perform h e s := by
  rw [dispatch_handle h e s hk]
  exact handle_operation h e k packet s

/-- A packet of an unknown number has no effect. -/
theorem dispatch_unknown {packet : List Byte} (s : Client σ)
    (hk : Kind.ofNumber (net32 packet 0) = none) : dispatch h e packet s = (packet, 0, s) := by
  have hne := Kind.ofNumber_eq_none hk
  simp only [dispatch, ntohl_load32]
  refine (if_neg (hne .open)).trans ?_
  refine (if_neg (hne .close)).trans ?_
  refine (if_neg (hne .read)).trans ?_
  refine (if_neg (hne .write)).trans ?_
  refine (if_neg (hne .lseek)).trans ?_
  refine (if_neg (hne .opendir)).trans ?_
  refine (if_neg (hne .closedir)).trans ?_
  refine (if_neg (hne .readdir)).trans ?_
  refine (if_neg (hne .remove)).trans ?_
  refine (if_neg (hne .mkdir)).trans ?_
  refine (if_neg (hne .rmdir)).trans ?_
  exact if_neg (hne .getstat)

end Ps2link

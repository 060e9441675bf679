import Ps2Client.Wire.Determined
import Ps2Client.Wire.Proofs.PathOperandsProofs

/-!
# Proofs: packets and uninitialised memory
-/

namespace Wire

open CMemory Network Ps2link

variable (e : Endian)

/-! ## Responses -/

theorem timeOf_size (t : Option (List Byte)) : (timeOf t).size = 8 := by
  cases t with
  | none => rfl
  | some t => exact peek_length ..

theorem timeOf_store (stack : List Byte) (off : Nat) (t : Option (List Byte)) :
    (timeOf t).store e (stack.drop off) = timeField stack off t := by
  cases t with
  | none => exact peek_drop stack off 8
  | some t => rfl

theorem headerBytes_structBytes (number : Word) (length : Half) (stack : List Byte) :
    headerBytes e number length = structBytes e [.word number, .half length] stack := by
  simp [structBytes, Field.store, headerBytes]

theorem entryBytes_structBytes (result : Int) (d : Entry) (stack : List Byte) :
    entryBytes e stack result d = structBytes e (entryFields result d) (stack.drop 6) := by
  simp only [entryFields, structBytes, timeOf_size, word_size, List.drop_drop, timeOf_store,
    word_store, List.append_nil, entryBytes, intBytes, List.append_assoc]

theorem responseResult_packet (number : Word) (result : Int) (stack : List Byte) :
    headerBytes e number 10 ++ intBytes e result =
      CMemory.packet e number [.word (.ofInt 32 result)] stack := by
  rw [headerBytes_structBytes e number 10 stack]
  simp only [CMemory.packet, structBytes, List.append_assoc, word_store, List.append_nil, intBytes]
  rfl

theorem entryFields_size (result : Int) (d : Entry) : sizeof (entryFields result d) = 44 := by
  simp [entryFields, timeOf_size, word_size]

theorem getstat_packet (result : Int) (d : Entry) (stack : List Byte) :
    headerBytes e RESPONSE_GETSTAT 50 ++ entryBytes e stack result d =
      Response.packet e (.getstat result d) stack := by
  rw [headerBytes_structBytes e _ 50 stack, entryBytes_structBytes, Response.packet,
    CMemory.packet, Response.fields, entryFields_size]
  exact (structBytes_append e [.word RESPONSE_GETSTAT, .half 50] (entryFields result d) stack).symm

theorem responseRead_packet (result size : Int) (stack : List Byte) :
    headerBytes e RESPONSE_READ 14 ++ intBytes e result ++ intBytes e size =
      Response.packet e (.read result size) stack := by
  rw [headerBytes_structBytes e _ 14 stack]
  simp only [Response.packet, CMemory.packet, Response.fields, structBytes, List.append_assoc,
    word_store, List.append_nil, intBytes]
  rfl

theorem readdir_packet (result : Int) (d : Entry) (name : Option CStr) (stack : List Byte) :
    headerBytes e RESPONSE_READDIR 306 ++ entryBytes e stack result d ++
        Field.store e (stack.drop 50) (.text name) =
      Response.packet e (.readdir result d name) stack := by
  have hheader := structBytes_append e [.word RESPONSE_READDIR, .half 306] (entryFields result d) stack
  have hname := structBytes_append e ([.word RESPONSE_READDIR, .half 306] ++ entryFields result d)
    [.text name] stack
  have hsize : sizeof ([.word RESPONSE_READDIR, .half 306] ++ entryFields result d) = 50 := by
    rw [sizeof_append, entryFields_size]
    rfl
  rw [hheader, hsize, structBytes_singleton] at hname
  rw [headerBytes_structBytes e _ 306 stack, entryBytes_structBytes, Response.packet,
    CMemory.packet, Response.fields, sizeof_append, entryFields_size]
  exact hname.symm

theorem nameField_store (stack : List Byte) (name : Option CStr) :
    (match name.map CStr.bytes with
      | some name => snprintf (peek stack 50 256) 256 name
      | none => peek stack 50 256) = Field.store e (stack.drop 50) (.text name) := by
  cases name with
  | none => exact (peek_drop stack 50 256).symm
  | some name =>
    rw [Field.store, peek_drop]
    rfl

/-- Every response function sends its packet, built on some contents of memory. -/
theorem Response.perform_sends {σ : Type} (h : Host σ) (r : Response) (s : Client σ) :
    ∃ stack, (r.perform h e s).2.sock =
      (networkSend s.sock (r.packet e stack) (6 + sizeof r.fields)).2 := by
  cases r with
  | readdir result d name =>
    have hsize : sizeof (Response.readdir result d name).fields = 300 := by
      rw [Response.fields, sizeof_append, entryFields_size]
      rfl
    refine ⟨(h.uninit 306 s.host).1, ?_⟩
    rw [hsize, ← readdir_packet, ← nameField_store]
    rfl
  | getstat result d =>
    refine ⟨(h.uninit 50 s.host).1, ?_⟩
    rw [Response.fields, entryFields_size, ← getstat_packet]
    rfl
  | read result size =>
    refine ⟨[], ?_⟩
    rw [← responseRead_packet]
    rfl
  | _ =>
    refine ⟨[], ?_⟩
    exact congrArg (fun bytes => (networkSend s.sock bytes 10).2) (responseResult_packet e _ _ _)

/-! ## The functions -/

/-- A function that sends a packet with the given fields, and fixed data behind it. -/
theorem determined_of_fields {f : Function} {number : Word} {fields : List Field} {data : List Byte}
    (h : ∀ stack, f.sends e stack = CMemory.packet e number fields stack ++ data) :
    f.Determined e ↔ ∀ g ∈ fields, g.Covered := by
  rw [← packet_determined_iff e number]
  constructor
  · intro hdet stack stack'
    have hsame := hdet stack stack'
    rw [h, h] at hsame
    exact List.append_cancel_right hsame
  · intro hdet stack stack'
    rw [h, h, hdet stack stack']

theorem timeOf_covered (t : Option (List Byte)) : (timeOf t).Covered ↔ t ≠ none := by
  cases t with
  | none => simp [timeOf, Field.Covered]
  | some t => simp [timeOf, Field.Covered]

/-- A response does not depend on the stack exactly when its fields are filled. -/
theorem response_determined_iff (r : Response) :
    Function.Determined e (.response r) ↔ Function.Filled (.response r) := by
  have hsends : ∀ stack, Function.sends e (.response r) stack =
      CMemory.packet e r.number r.fields stack ++ [] := fun stack => (List.append_nil _).symm
  rw [determined_of_fields e hsends]
  cases r with
  | readdir result d name =>
    simp [Response.fields, entryFields, timeOf_covered, text_covered, Function.Filled, Fills]
  | getstat result d =>
    simp [Response.fields, entryFields, timeOf_covered, Function.Filled]
  | _ => simp [Response.fields, Function.Filled]

/-- Whether `fix_argv` fails, and what it writes, does not depend on what it writes over. -/
theorem exec_determined {c : Ps2link.Command} {argc : Word} {argv : List CStr}
    (hfields : ∀ stack, c.fields stack = [.word argc, .filled (packArgv argv stack).2])
    (hrefused : ∀ stack, c.refused stack = decide ((packArgv argv stack).1 < 0)) :
    Function.Determined e (.command (.link c)) := by
  intro stack stack'
  show (if c.refused stack then [] else c.packet e stack) =
    if c.refused stack' then [] else c.packet e stack'
  rw [hrefused, hrefused, packArgv_result, packArgv_result, Ps2link.Command.packet, hfields,
    Ps2link.Command.packet, hfields]
  by_cases hfit : (Utility.joined argv).length ≤ 256
  · rw [packArgv_eq stack hfit, packArgv_eq stack' hfit,
      (packet_determined_iff e c.number [.word argc, .filled _]).mpr (by simp) stack stack']
  · rw [if_neg hfit]
    rfl

/-- So it is for a command to ps2link, -/
theorem link_determined_iff (c : Ps2link.Command) :
    Function.Determined e (.command (.link c)) ↔ Function.Filled (.command (.link c)) := by
  cases c with
  | execiop argc argv =>
    have hdet : Function.Determined e (.command (.link (.execiop argc argv))) :=
      exec_determined e (fun _ => rfl) (fun _ => rfl)
    simp [hdet, Function.Filled, Ps2link.Command.strings]
  | execee argc argv =>
    have hdet : Function.Determined e (.command (.link (.execee argc argv))) :=
      exec_determined e (fun _ => rfl) (fun _ => rfl)
    simp [hdet, Function.Filled, Ps2link.Command.strings]
  | _ =>
    refine (determined_of_fields e (fun stack => (List.append_nil _).symm)).trans ?_
    simp [Function.Filled, Ps2link.Command.strings, text_covered, Fills]

/-- and for one to ps2netfs. -/
theorem netfs_determined_iff (c : Ps2netfs.Command) :
    Function.Determined e (.command (.netfs c)) ↔ Function.Filled (.command (.netfs c)) := by
  cases c with
  | «open» pathname flags =>
    refine ⟨fun _ => trivial, fun _ => ?_⟩
    -- The packet is built on cleared memory.
    exact fun stack stack' => rfl
  | read fd size =>
    have hdet : Function.Determined e (.command (.netfs (.read fd size))) := by
      intro stack stack'
      have hsame := (packet_determined_iff e Ps2netfs.COMMAND_READ [.word fd, .word size]).mpr
        (by simp) stack stack'
      exact congrArg (fun bytes => if (Ps2netfs.Command.read fd size).Refused then [] else bytes ++ [])
        hsame
    simp [hdet, Function.Filled, Ps2netfs.Command.strings]
  | umount device flags =>
    refine (determined_of_fields e (fun stack => rfl)).trans ?_
    simp [Function.Filled, Ps2netfs.Command.fields, Field.Covered]
  | _ =>
    refine (determined_of_fields e (fun stack => rfl)).trans ?_
    simp [Function.Filled, Ps2netfs.Command.strings, Ps2netfs.Command.fields, text_covered, Fills]

/-- The bytes a function sends are determined by its arguments exactly when these reach every byte of
the packet. -/
theorem determined_iff (f : Function) : f.Determined e ↔ f.Filled := by
  cases f with
  | command c =>
    cases c with
    | link c => exact link_determined_iff e c
    | netfs c => exact netfs_determined_iff e c
  | response r => exact response_determined_iff e r

/-- `delete` of a path of one byte sends what was in memory behind it. -/
theorem not_determined :
    ¬ Function.Determined .little (.command (.netfs (.delete (some ⟨[ascii 'a'], by decide⟩) 0))) := by
  intro hdet
  obtain ⟨t, ht, hlen⟩ := (netfs_determined_iff .little _).mp hdet _ List.mem_cons_self
  cases ht
  exact absurd hlen (by decide)

end Wire

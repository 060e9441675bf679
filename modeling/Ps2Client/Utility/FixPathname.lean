import Ps2Client.Utility.FixArguments

/-!
# What `fix_pathname` writes

The function once more, as the stores it makes. Each turn of a loop looks at the string that the
stores before it have left.
-/

namespace Utility

open CMemory

/-- A store of one byte. -/
structure Store where
  offset : Nat
  byte : Byte
  deriving DecidableEq, Repr

def storeAll (p : List Byte) (stores : List Store) : List Byte :=
  stores.foldl (fun p s => p.set s.offset s.byte) p

/-- The stores of the first loop. -/
def convertStores (p : List Byte) (i : Nat) : List Store :=
  if _ : i < strlen p then
    if byteAt p i = ascii '\\' then
      ⟨i, ascii '/'⟩ :: convertStores (p.set i (ascii '/')) (i + 1)
    else convertStores p (i + 1)
  else []
termination_by p.length - i
decreasing_by
  · have hle := strlen_le_length p
    rw [List.length_set]
    omega
  · have hle := strlen_le_length p
    omega

/-- The stores of the second loop, and `loop0` at its end. -/
def shiftStores (p : List Byte) (i : Nat) : List Store × Nat :=
  if _ : i < strlen p - 1 then
    let (stores, last) := shiftStores (p.set i (byteAt p (i + 1))) (i + 1)
    (⟨i, byteAt p (i + 1)⟩ :: stores, last)
  else ([], i)
termination_by p.length - i
decreasing_by
  have hle := strlen_le_length p
  rw [List.length_set]
  omega

/-- All stores of `fix_pathname`, in order. -/
def pathnameStores (p : List Byte) : List Store :=
  let named := if byteAt p 0 = 0 then [⟨0, ascii '.'⟩, ⟨1, 0⟩] else []
  let p := storeAll p named
  let converted := convertStores p 0
  let p := storeAll p converted
  let shifted :=
    if byteAt p 0 = ascii '/' ∧ byteAt p 1 ≠ 0 then
      let (stores, last) := shiftStores p 0
      stores ++ [⟨last, 0⟩]
    else []
  named ++ converted ++ shifted

/-- `fix_pathname` leaves the host path of the string in a field, with its null, and writes no
further than the string goes, or than the default does. -/
structure PathnameFixed (p : List Byte) : Prop where
  stores : storeAll p (pathnameStores p) = fixPathname p
  inside : ∀ s ∈ pathnameStores p, s.offset ≤ max (strlen p) 1
  field : (fixPathname p).length = p.length
  string : hostPath (cstr p) ++ [0] <+: fixPathname p
  nonempty : hostPath (cstr p) ≠ []
  slashes : ascii '\\' ∉ hostPath (cstr p)

end Utility

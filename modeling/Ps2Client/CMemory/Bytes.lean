import Mathlib.Algebra.Ring.Int.Defs
import Mathlib.Algebra.Ring.Nat
import Mathlib.Data.List.Basic
import Mathlib.Tactic.Common

/-!
# Bytes, machine words and host byte order

A memory area is a list of bytes. A C object of two or four bytes that lies in it is read and
written in the byte order of the host, so an overlay of a packed struct on a received packet is a
sequence of `load32`/`load16` at the offsets of its fields. The byte order is a parameter
everywhere: `ntohl` and `htonl` are the identity on a big-endian host and swap the bytes on a
little-endian one.

Reads past the end of a memory area give `0`.
-/

namespace CMemory

abbrev Byte := BitVec 8
abbrev Half := BitVec 16
abbrev Word := BitVec 32

/-- The byte order of the host. -/
inductive Endian where
  | little
  | big
  deriving DecidableEq, Repr

/-! ## Network byte order -/

/-- The four bytes of a word, most significant first. -/
def be32 (w : Word) : List Byte :=
  [.ofNat 8 (w.toNat / 2 ^ 24), .ofNat 8 (w.toNat / 2 ^ 16), .ofNat 8 (w.toNat / 2 ^ 8),
    .ofNat 8 w.toNat]

/-- The two bytes of a half word, most significant first. -/
def be16 (w : Half) : List Byte :=
  [.ofNat 8 (w.toNat / 2 ^ 8), .ofNat 8 w.toNat]

/-- The word whose bytes are, most significant first, `b₀ b₁ b₂ b₃`. -/
def ofBe32 (b₀ b₁ b₂ b₃ : Byte) : Word :=
  .ofNat 32 (b₀.toNat * 2 ^ 24 + b₁.toNat * 2 ^ 16 + b₂.toNat * 2 ^ 8 + b₃.toNat)

/-- The half word whose bytes are, most significant first, `b₀ b₁`. -/
def ofBe16 (b₀ b₁ : Byte) : Half :=
  .ofNat 16 (b₀.toNat * 2 ^ 8 + b₁.toNat)

/-! ## Memory areas -/

/-- The byte at `off`. -/
def byteAt (m : List Byte) (off : Nat) : Byte := m.getD off 0

/-- The `len` bytes from `off` on. -/
def peek (m : List Byte) (off len : Nat) : List Byte :=
  (List.range len).map fun i => byteAt m (off + i)

/-- `m` with the bytes from `off` on overwritten by `bs`. -/
def poke (m : List Byte) (off : Nat) (bs : List Byte) : List Byte :=
  m.take off ++ bs ++ m.drop (off + bs.length)

/-- The four bytes at `off`, read in network byte order. -/
def net32 (m : List Byte) (off : Nat) : Word :=
  ofBe32 (byteAt m off) (byteAt m (off + 1)) (byteAt m (off + 2)) (byteAt m (off + 3))

/-- The two bytes at `off`, read in network byte order. -/
def net16 (m : List Byte) (off : Nat) : Half :=
  ofBe16 (byteAt m off) (byteAt m (off + 1))

/-- Conversion to a C `int`. -/
def toInt32 (x : Int) : Int := (BitVec.ofInt 32 x).toInt

/-! ## Host byte order -/

/-- The bytes of a word in the memory of the host. -/
def host32 (e : Endian) (w : Word) : List Byte :=
  match e with
  | .big => be32 w
  | .little => (be32 w).reverse

/-- The bytes of a half word in the memory of the host. -/
def host16 (e : Endian) (w : Half) : List Byte :=
  match e with
  | .big => be16 w
  | .little => (be16 w).reverse

/-- A four-byte object of the host's memory. -/
def load32 (e : Endian) (m : List Byte) (off : Nat) : Word :=
  match e with
  | .big => net32 m off
  | .little =>
    ofBe32 (byteAt m (off + 3)) (byteAt m (off + 2)) (byteAt m (off + 1)) (byteAt m off)

/-- A two-byte object of the host's memory. -/
def load16 (e : Endian) (m : List Byte) (off : Nat) : Half :=
  match e with
  | .big => net16 m off
  | .little => ofBe16 (byteAt m (off + 1)) (byteAt m off)

/-- Assignment to a four-byte object of the host's memory. -/
def store32 (e : Endian) (m : List Byte) (off : Nat) (w : Word) : List Byte :=
  poke m off (host32 e w)

/-- The word with the bytes of `w` in reverse order. -/
def swap32 (w : Word) : Word :=
  ofBe32 (.ofNat 8 w.toNat) (.ofNat 8 (w.toNat / 2 ^ 8)) (.ofNat 8 (w.toNat / 2 ^ 16))
    (.ofNat 8 (w.toNat / 2 ^ 24))

/-- The half word with the bytes of `w` in reverse order. -/
def swap16 (w : Half) : Half :=
  ofBe16 (.ofNat 8 w.toNat) (.ofNat 8 (w.toNat / 2 ^ 8))

def ntohl (e : Endian) (w : Word) : Word :=
  match e with
  | .big => w
  | .little => swap32 w

def htonl (e : Endian) (w : Word) : Word :=
  match e with
  | .big => w
  | .little => swap32 w

def ntohs (e : Endian) (w : Half) : Half :=
  match e with
  | .big => w
  | .little => swap16 w

def htons (e : Endian) (w : Half) : Half :=
  match e with
  | .big => w
  | .little => swap16 w

end CMemory

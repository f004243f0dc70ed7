import NetworkStructure.LittleEndian

/-! # The order of the bytes of a number

A host that stores the low byte of a number first, and the network, where the high byte comes
first.  A number of `n` bytes has `8 * n` bits; `hostBytes` are the bytes that it occupies in the
memory of the host, and `swapBytes` is both `htobe` and `betoh`.  What is copied to the network
from the memory of `swapBytes x` is `x` with the high byte first (`hostBytes_swapBytes`), and the
same detour brings it back (`swapBytes_swapBytes`).  `NetInt` are the numbers of the four sizes
that go over a wire. -/

namespace NetworkStructure

variable {n : ℕ}

/-- The bytes in memory. -/
def hostBytes (x : BitVec (8 * n)) : List UInt8 := leBytes n x.toNat

/-- The number in a piece of memory. -/
def ofHostBytes (n : ℕ) (bs : List UInt8) : BitVec (8 * n) := BitVec.ofNat (8 * n) (leValue bs)

/-- `htobe16`, `htobe32`, `htobe64` and their inverses. -/
def swapBytes (x : BitVec (8 * n)) : BitVec (8 * n) := ofHostBytes n (hostBytes x).reverse

theorem pow_bytes (n : ℕ) : 2 ^ (8 * n) = 256 ^ n := by rw [Nat.pow_mul]

@[simp] theorem hostBytes_length (x : BitVec (8 * n)) : (hostBytes x).length = n :=
  leBytes_length n x.toNat

theorem ofHostBytes_hostBytes (x : BitVec (8 * n)) : ofHostBytes n (hostBytes x) = x := by
  have hx : x.toNat < 256 ^ n := pow_bytes n ▸ x.isLt
  unfold ofHostBytes hostBytes
  rw [leValue_leBytes hx, BitVec.ofNat_toNat, BitVec.setWidth_eq]

theorem hostBytes_ofHostBytes {bs : List UInt8} (h : bs.length = n) :
    hostBytes (ofHostBytes n bs) = bs := by
  subst h
  have hlt : leValue bs < 2 ^ (8 * bs.length) := pow_bytes bs.length ▸ leValue_lt bs
  unfold hostBytes ofHostBytes
  rw [BitVec.toNat_ofNat, Nat.mod_eq_of_lt hlt, leBytes_leValue]

/-- In memory the bytes are in the other order. -/
theorem hostBytes_swapBytes (x : BitVec (8 * n)) :
    hostBytes (swapBytes x) = (hostBytes x).reverse :=
  hostBytes_ofHostBytes (by rw [List.length_reverse, hostBytes_length])

/-- The high byte comes first. -/
example : hostBytes (swapBytes (0x01020304 : BitVec (8 * 4))) = [1, 2, 3, 4] := by decide

/-! ### Numbers on the wire -/

inductive IntWidth where
  | int8
  | int16
  | int32
  | int64
deriving DecidableEq, Repr

/-- A number with its type. -/
inductive NetInt where
  | int8 (x : Int8)
  | int16 (x : Int16)
  | int32 (x : Int32)
  | int64 (x : Int64)
deriving DecidableEq

/-- `sizeof`. -/
def IntWidth.bytes : IntWidth → ℕ
  | int8 => 1
  | int16 => 2
  | int32 => 4
  | int64 => 8

namespace NetInt

def width : NetInt → IntWidth
  | int8 _ => .int8
  | int16 _ => .int16
  | int32 _ => .int32
  | int64 _ => .int64

/-- The number on the wire: the high byte comes first. -/
def wire : NetInt → List UInt8
  | int8 x => [x.toUInt8]
  | int16 x => (hostBytes (n := 2) x.toBitVec).reverse
  | int32 x => (hostBytes (n := 4) x.toBitVec).reverse
  | int64 x => (hostBytes (n := 8) x.toBitVec).reverse

/-- What the bytes on the wire stand for. -/
def ofWire (w : IntWidth) (bs : List UInt8) : NetInt :=
  match w with
  | .int8 => int8 (bs.headD 0).toInt8
  | .int16 => int16 (.ofBitVec (ofHostBytes 2 bs.reverse))
  | .int32 => int32 (.ofBitVec (ofHostBytes 4 bs.reverse))
  | .int64 => int64 (.ofBitVec (ofHostBytes 8 bs.reverse))

@[simp] theorem wire_length (x : NetInt) : x.wire.length = x.width.bytes := by
  cases x with
  | int8 x => rfl
  | int16 x => rw [wire, List.length_reverse, hostBytes_length]; rfl
  | int32 x => rw [wire, List.length_reverse, hostBytes_length]; rfl
  | int64 x => rw [wire, List.length_reverse, hostBytes_length]; rfl

theorem ofWire_wire (x : NetInt) : ofWire x.width x.wire = x := by
  cases x with
  | int8 x => rfl
  | int16 x => rw [width, ofWire, wire, List.reverse_reverse, ofHostBytes_hostBytes]; rfl
  | int32 x => rw [width, ofWire, wire, List.reverse_reverse, ofHostBytes_hostBytes]; rfl
  | int64 x => rw [width, ofWire, wire, List.reverse_reverse, ofHostBytes_hostBytes]; rfl

end NetInt

end NetworkStructure

import Sunstrider.Lib.Digits

/-!
# Byte buffers

What packets are written to and read from: a vector of bytes with a position for the next
byte read and one for the next written. Positions are `size_t` and may be set to anything.
A read beyond the end throws; a write beyond it makes the vector longer. Numbers stand in
little-endian order.

An operation stops with an exception, with a failed assertion, with the length error of a
vector that cannot become that long, or by touching memory outside of the vector; the last
is what the sums of positions, which wrap around, can lead to.
-/

namespace Sunstrider.Packets

open Lib.Digits (littleEndian value)

/-- `max_size()` of a vector of bytes. -/
def maxSize : Nat := 2 ^ 63 - 1

/-- `std::vector<uint8>`. -/
abbrev Storage := { bytes : List UInt8 // bytes.length ≤ maxSize }

inductive Stop where
  | positionException (add : Bool) (pos size valueSize : UInt64)
  | sourceException (pos size valueSize : UInt64)
  | assertion
  | lengthError
  | outsideVector
deriving DecidableEq, Repr

structure ByteBuffer where
  rpos : UInt64
  wpos : UInt64
  storage : Storage
deriving DecidableEq, Repr

namespace Storage

/-- `vector::resize` to more bytes than there are. -/
def resize (s : Storage) (newsize : UInt64) : Except Stop Storage :=
  let bytes := s.1 ++ List.replicate (newsize.toNat - s.1.length) 0
  if h : bytes.length ≤ maxSize then .ok ⟨bytes, h⟩ else .error .lengthError

/-- What `append` makes of the vector before it copies. -/
def atLeast (s : Storage) (newsize : UInt64) : Except Stop Storage :=
  if .ofNat s.1.length < newsize then s.resize newsize else .ok s

/-- `std::memcpy` to a position in the vector. -/
def copyTo (s : Storage) (pos : UInt64) (src : List UInt8) : Except Stop Storage :=
  if h : pos.toNat + src.length ≤ s.1.length then
    .ok ⟨s.1.take pos.toNat ++ src ++ s.1.drop (pos.toNat + src.length), by
      have := s.2
      rw [List.length_append, List.length_append, List.length_take, List.length_drop]
      omega⟩
  else .error .outsideVector

end Storage

namespace ByteBuffer

/-- The constructor. -/
def new : ByteBuffer := ⟨0, 0, ⟨[], Nat.zero_le _⟩⟩

def size (b : ByteBuffer) : UInt64 := .ofNat b.storage.1.length

/-! ## Writing -/

def append (b : ByteBuffer) (src : List UInt8) : Except Stop ByteBuffer :=
  let cnt := UInt64.ofNat src.length
  if cnt = 0 then .error (.sourceException b.wpos b.size cnt)
  else if ¬ b.size < 10000000 then .error .assertion
  else do
    let storage ← b.storage.atLeast (b.wpos + cnt)
    let storage ← storage.copyTo b.wpos src
    .ok { b with storage := storage, wpos := b.wpos + cnt }

/-- `operator<<` of a `uint8`. -/
def writeUInt8 (b : ByteBuffer) (v : UInt8) : Except Stop ByteBuffer :=
  b.append (littleEndian 1 v.toNat)

/-- `operator<<` of a `uint16`. -/
def writeUInt16 (b : ByteBuffer) (v : UInt16) : Except Stop ByteBuffer :=
  b.append (littleEndian 2 v.toNat)

/-- `operator<<` of a `uint32`. -/
def writeUInt32 (b : ByteBuffer) (v : UInt32) : Except Stop ByteBuffer :=
  b.append (littleEndian 4 v.toNat)

/-! ## Reading -/

/-- `read<T>` of a `T` of some bytes; the number, and the buffer behind it. -/
def read (b : ByteBuffer) (bytes : Nat) : Except Stop (Nat × ByteBuffer) :=
  if b.size < b.rpos + .ofNat bytes then
    .error (.positionException false b.rpos (.ofNat bytes) b.size)
  else if b.storage.1.length < b.rpos.toNat + bytes then .error .outsideVector
  else
    .ok (value ((b.storage.1.drop b.rpos.toNat).take bytes),
      { b with rpos := b.rpos + .ofNat bytes })

/-- `operator>>` of a `uint8`. -/
def readUInt8 (b : ByteBuffer) : Except Stop (UInt8 × ByteBuffer) := do
  let (v, b) ← b.read 1
  .ok (.ofNat v, b)

/-- `operator>>` of a `uint16`. -/
def readUInt16 (b : ByteBuffer) : Except Stop (UInt16 × ByteBuffer) := do
  let (v, b) ← b.read 2
  .ok (.ofNat v, b)

/-- `operator>>` of a `uint32`. -/
def readUInt32 (b : ByteBuffer) : Except Stop (UInt32 × ByteBuffer) := do
  let (v, b) ← b.read 4
  .ok (.ofNat v, b)

/-! ## Packed guids -/

/-- The loop of `appendPackGUID`, with the mark and the bytes behind it so far. -/
def packGUIDFrom (guid : UInt64) (i : Nat) (mark : UInt8) (packed : List UInt8) :
    UInt8 × List UInt8 :=
  if guid = 0 then (mark, packed)
  else if guid &&& 0xFF ≠ 0 then
    packGUIDFrom (guid >>> 8) (i + 1) (mark ||| .ofNat (1 <<< i))
      (packed ++ [(guid &&& 0xFF).toUInt8])
  else packGUIDFrom (guid >>> 8) (i + 1) mark packed
termination_by guid.toNat
decreasing_by
  all_goals
    have hpos : guid.toNat ≠ 0 := fun h => ‹¬ guid = 0› (UInt64.toNat_inj.1 h)
    have hshift : (guid >>> 8).toNat = guid.toNat / 2 ^ 8 := by
      rw [UInt64.toNat_shiftRight]
      exact Nat.shiftRight_eq_div_pow _ _
    rw [hshift]
    omega

/-- What `appendPackGUID` has in its `packGUID`. -/
def packGUID (guid : UInt64) : List UInt8 :=
  let packed := packGUIDFrom guid 0 0 []
  packed.1 :: packed.2

def appendPackGUID (b : ByteBuffer) (guid : UInt64) : Except Stop ByteBuffer :=
  b.append (packGUID guid)

/-- One round of the loop of `readPackGUID`. -/
def readPackGUIDStep (guidmark : UInt8) (read : UInt64 × ByteBuffer) (i : Nat) :
    Except Stop (UInt64 × ByteBuffer) :=
  if guidmark.toNat &&& (1 <<< i) ≠ 0 then
    let b := read.2
    if b.size < b.rpos + 1 then .error (.positionException false b.rpos 1 b.size)
    else do
      let (bit, b) ← b.readUInt8
      .ok (read.1 ||| (bit.toUInt64 <<< .ofNat (i * 8)), b)
  else .ok read

def readPackGUID (b : ByteBuffer) : Except Stop (UInt64 × ByteBuffer) :=
  if b.size < b.rpos + 1 then .error (.positionException false b.rpos 1 b.size)
  else do
    let (guidmark, b) ← b.readUInt8
    (List.range 8).foldlM (readPackGUIDStep guidmark) (0, b)

end ByteBuffer

end Sunstrider.Packets

import BlockCache.Error
import BlockCache.Item.Basic
import BlockCache.Number.LittleEndian

/-!
# The stored form of items

An item is stored as a header of 37 bytes and its data. The header holds, least significant byte
first, flags (4), expiry (8), time of storing (8), CAS value (8), one byte that says whether the
item is held, and the end of the hold (8). The key is kept beside the arena and is not part of it.
-/

namespace BlockCache.Item

/-- Bytes before the data. -/
def headerLength : Nat := 37

def encodedLength (i : Item) : Nat := headerLength + i.data.length

/-- The header and the data. -/
def encode (i : Item) : Bytes :=
  LittleEndian.toBytes 4 i.flags.toNat ++ LittleEndian.toBytes 8 i.expire.toUInt64.toNat ++
    LittleEndian.toBytes 8 i.storedAt.toUInt64.toNat ++ LittleEndian.toBytes 8 i.cas.toNat ++
    [if i.held then 1 else 0] ++ LittleEndian.toBytes 8 i.heldUntil.toUInt64.toNat ++ i.data

/-- The `width` bytes from `offset` on as a number. -/
def field (b : Bytes) (offset width : Nat) : Nat := LittleEndian.ofBytes ((b.drop offset).take width)

/-- Reads back what `encode` wrote; any byte but 0 says that the item is held. -/
def decode (key : Key) (b : Bytes) : Except StoreError Item :=
  if b.length < headerLength then
    .error (.decoding s!"element of {b.length} bytes is shorter than the {headerLength} byte header")
  else
    .ok {
      key
      flags := (field b 0 4).toUInt32
      expire := (field b 4 8).toUInt64.toInt64
      storedAt := (field b 12 8).toUInt64.toInt64
      cas := (field b 20 8).toUInt64
      held := field b 28 1 != 0
      heldUntil := (field b 29 8).toUInt64.toInt64
      data := b.drop headerLength }

theorem length_encode (i : Item) : i.encode.length = i.encodedLength := by
  simp [encode, encodedLength, headerLength]
  omega

end BlockCache.Item

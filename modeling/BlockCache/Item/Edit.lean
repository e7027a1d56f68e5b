import BlockCache.Error
import BlockCache.Item.Basic
import BlockCache.Number.Decimal

/-!
# Edits in place

Edits keep an item's flags, expiry and time of storing and give it new data: more bytes at either
end, or the decimal text of a counter after an addition that stops at 0 and at the largest 64-bit
number.
-/

namespace BlockCache.Item

/-- The item with other data, as a fresh write: no CAS value yet and no hold. -/
def withData (i : Item) (data : Bytes) : Item :=
  { i with data, cas := 0, held := false, heldUntil := 0 }

/-- The item with the data of `other` after its own. -/
def append (i other : Item) : Item := i.withData (i.data ++ other.data)

/-- The item with the data of `other` before its own. -/
def prepend (i other : Item) : Item := i.withData (other.data ++ i.data)

/-- Spaces and line ends, which may follow the digits of a counter. -/
def isPadding (b : UInt8) : Bool := b == 32 || b == 13 || b == 10

/-- The data read as an unsigned number. -/
def number? (i : Item) : Except StoreError UInt64 :=
  match Decimal.readUInt64? (Bytes.dropTrailing isPadding i.data) with
  | some n => .ok n
  | none => .error .notANumber

/-- Adds `delta`, or subtracts its magnitude, without leaving the unsigned 64-bit range. -/
def addClamped (value : UInt64) (delta : Int64) : UInt64 :=
  let magnitude := delta.toInt.natAbs
  if 0 ≤ delta then (min (value.toNat + magnitude) (UInt64.size - 1)).toUInt64
  else (value.toNat - magnitude).toUInt64

/-- The item with its number changed by `delta`, and the new number. -/
def add (i : Item) (delta : Int64) : Except StoreError (Item × UInt64) :=
  match i.number? with
  | .error e => .error e
  | .ok current =>
    let value := addClamped current delta
    .ok (i.withData (Decimal.digits value.toNat), value)

end BlockCache.Item

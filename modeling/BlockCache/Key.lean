import BlockCache.Number.SipHash
import BlockCache.Text.Quoted
import BlockCache.Text.Utf8

/-!
# Keys

A key is a byte string. The store accepts any; the wire only admits keys of 1 to 250 bytes in the
printable ASCII range. The hash of a key picks its partition and its bucket.
-/

namespace BlockCache

/-- The name an item is stored under. -/
structure Key where
  bytes : Bytes
deriving DecidableEq

namespace Key

/-- The longest key the wire admits. -/
def maxLength : Nat := 250

def length (k : Key) : Nat := k.bytes.length

/-- Whether a byte may stand in a key on the wire: neither a control character nor a space. -/
def isKeyByte (b : UInt8) : Bool := 33 ≤ b && b ≤ 126

/-- Whether the key may be sent on the wire. -/
def isValid (k : Key) : Bool := !k.bytes.isEmpty && k.bytes.length ≤ maxLength && k.bytes.all isKeyByte

/-- The hash of the length, as eight bytes, followed by the key. -/
def hash (k : Key) : UInt64 :=
  SipHash.hash (LittleEndian.toBytes 8 k.bytes.length ++ k.bytes)

instance : Hashable Key := ⟨hash⟩

def text (k : Key) : String := Utf8.lossy k.bytes

def quoted (k : Key) : String := "Key(" ++ Text.quote k.text ++ ")"

/-- Byte order, a proper prefix first. -/
def order (a b : Key) : Ordering := Bytes.order a.bytes b.bytes

end Key
end BlockCache

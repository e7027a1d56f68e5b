import BlockCache.Number.LittleEndian

/-!
# SipHash-1-3

The keyed hash with one compression round per eight-byte word and three finalisation rounds, under
the all-zero key. It spreads keys over partitions and buckets the same way in every process.
-/

namespace BlockCache.SipHash

/-- The four words of the hash state. -/
structure State where
  v0 : UInt64
  v1 : UInt64
  v2 : UInt64
  v3 : UInt64

/-- The state under the all-zero key. -/
def State.initial : State :=
  ⟨0x736f6d6570736575, 0x646f72616e646f6d, 0x6c7967656e657261, 0x7465646279746573⟩

def rotateLeft (x : UInt64) (n : UInt64) : UInt64 := (x <<< n) ||| (x >>> (64 - n))

/-- One round of additions, rotations and exclusive ors. -/
def State.round (s : State) : State :=
  let a := s.v0 + s.v1
  let b := rotateLeft s.v1 13 ^^^ a
  let c := s.v2 + s.v3
  let d := rotateLeft s.v3 16 ^^^ c
  let a' := rotateLeft a 32 + d
  let d' := rotateLeft d 21 ^^^ a'
  let c' := c + b
  let b' := rotateLeft b 17 ^^^ c'
  ⟨a', b', rotateLeft c' 32, d'⟩

/-- Takes in one word of the message. -/
def State.absorb (s : State) (word : UInt64) : State :=
  let s := { s with v3 := s.v3 ^^^ word }.round
  { s with v0 := s.v0 ^^^ word }

/-- At most eight bytes as one word. -/
def word (b : Bytes) : UInt64 := (LittleEndian.ofBytes b).toUInt64

/-- Absorbs whole words; what is left is shorter than eight bytes. -/
def absorbAll (s : State) : Bytes → State × Bytes
  | a :: b :: c :: d :: e :: f :: g :: h :: rest => absorbAll (s.absorb (word [a, b, c, d, e, f, g, h])) rest
  | rest => (s, rest)

/-- The hash of a message. The last word holds the leftover bytes and, on top, the length. -/
def hash (message : Bytes) : UInt64 :=
  let (s, rest) := absorbAll .initial message
  let s := s.absorb (word rest ||| (message.length.toUInt64 <<< 56))
  let s := { s with v2 := s.v2 ^^^ 0xff }.round.round.round
  s.v0 ^^^ s.v1 ^^^ s.v2 ^^^ s.v3

end BlockCache.SipHash

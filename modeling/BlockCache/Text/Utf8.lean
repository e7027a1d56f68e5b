import BlockCache.Text.Bytes

/-!
# UTF-8

Reading bytes as text. A byte string is cut into pieces, each either one well-formed character or
the longest run of bytes that begins a character and cannot be continued. Text shown to people puts
U+FFFD in the place of every piece of the second kind; a file that holds one is not text at all.
-/

namespace BlockCache.Utf8

/-- What a leading byte promises: how many bytes follow it, and the bounds of the first of them. -/
def follow (lead : UInt8) : Option (Nat × UInt8 × UInt8) :=
  if lead < 0x80 then some (0, 0x80, 0xBF)
  else if lead < 0xC2 then none
  else if lead < 0xE0 then some (1, 0x80, 0xBF)
  else if lead = 0xE0 then some (2, 0xA0, 0xBF)
  else if lead = 0xED then some (2, 0x80, 0x9F)
  else if lead < 0xF0 then some (2, 0x80, 0xBF)
  else if lead = 0xF0 then some (3, 0x90, 0xBF)
  else if lead < 0xF4 then some (3, 0x80, 0xBF)
  else if lead = 0xF4 then some (3, 0x80, 0x8F)
  else none

/-- The longest start of `rest` that continues a character owing `n` bytes, the next of them
between `low` and `high`. -/
def continuation : Nat → UInt8 → UInt8 → Bytes → Bytes
  | n + 1, low, high, b :: rest =>
    if low ≤ b && b ≤ high then b :: continuation n 0x80 0xBF rest else []
  | _, _, _, _ => []

/-- The code point of a leading byte and its continuation, six bits from each of the latter. -/
def codePoint (lead : UInt8) (tail : Bytes) : Nat :=
  let mask := if tail.isEmpty then 0x7F else 0x3F >>> tail.length
  tail.foldl (fun code b => code * 64 + (b.toNat &&& 0x3F)) (lead.toNat &&& mask)

/-- The pieces of a byte string, in order; `none` is a run that is no character. -/
def pieces : Bytes → List (Option Char)
  | [] => []
  | lead :: rest =>
    match follow lead with
    | none => none :: pieces rest
    | some (n, low, high) =>
      let tail := continuation n low high rest
      let piece := if tail.length = n then some (Char.ofNat (codePoint lead tail)) else none
      piece :: pieces (rest.drop tail.length)
termination_by b => b.length
decreasing_by
  · simp
  · simp only [List.length_drop, List.length_cons]
    omega

/-- The byte string as text, with U+FFFD for each run that is no character. -/
def lossy (b : Bytes) : String := String.ofList ((pieces b).map (·.getD '\uFFFD'))

/-- The byte string as text, if it is well formed. -/
def decode? (b : Bytes) : Option String := (pieces b).mapM id |>.map String.ofList

end BlockCache.Utf8

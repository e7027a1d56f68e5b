/-!
# Byte strings

Keys, values and everything that crosses the wire are byte strings. A list of bytes is the whole
representation: the grammar of the wire is read off it, and the arena copies it in and out. Here
are the cuts that the wire makes, at the end of a line and at spaces.
-/

namespace BlockCache

/-- A byte string. -/
abbrev Bytes := List UInt8

namespace Bytes

/-- The UTF-8 encoding of a text. -/
def ofString (s : String) : Bytes := s.toUTF8.data.toList

/-- The two bytes that end every line on the wire. -/
def crlf : Bytes := [13, 10]

/-- An ASCII capital letter as its small letter; every other byte stands for itself. -/
def lowerAscii (b : UInt8) : UInt8 := if 65 ≤ b && b ≤ 90 then b + 32 else b

/-- The text with its trailing bytes of class `drop` removed. -/
def dropTrailing (drop : UInt8 → Bool) (b : Bytes) : Bytes := (b.reverse.dropWhile drop).reverse

/-- Lexicographic order, a proper prefix first. -/
def order : Bytes → Bytes → Ordering
  | [], [] => .eq
  | [], _ :: _ => .lt
  | _ :: _, [] => .gt
  | a :: as, b :: bs => if a < b then .lt else if b < a then .gt else order as bs

/-- Cuts at the first line end; `before` is the line read so far, last byte first. -/
def splitLineFrom (before : Bytes) : Bytes → Option (Bytes × Bytes)
  | [] => none
  | 13 :: 10 :: rest => some (before.reverse, rest)
  | b :: rest => splitLineFrom (b :: before) rest

/-- The first line without its end, and what follows the end; `none` if no line has ended. -/
def splitLine (b : Bytes) : Option (Bytes × Bytes) := splitLineFrom [] b

/-- Cuts at spaces; `token` is the token being read, last byte first, and `found` are the tokens
read so far, last one first. -/
def tokensFrom (token : Bytes) (found : List Bytes) : Bytes → List Bytes
  | [] => (if token.isEmpty then found else token.reverse :: found).reverse
  | b :: rest =>
    if b = 32 then tokensFrom [] (if token.isEmpty then found else token.reverse :: found) rest
    else tokensFrom (b :: token) found rest

/-- The non-empty pieces between spaces. -/
def tokens (b : Bytes) : List Bytes := tokensFrom [] [] b

theorem splitLineFrom_eq_some {before b line rest : Bytes} (cut : splitLineFrom before b = some (line, rest)) :
    before.reverse ++ b = line ++ crlf ++ rest := by
  fun_induction splitLineFrom before b with
  | case1 => simp at cut
  | case2 before rest' =>
    obtain ⟨rfl, rfl⟩ := by simpa using cut
    simp [crlf]
  | case3 before b rest' _ ih => simpa using ih cut

/-- A line, its end and the rest are the whole. -/
theorem splitLine_eq_some {b line rest : Bytes} (cut : splitLine b = some (line, rest)) :
    b = line ++ crlf ++ rest := by simpa using splitLineFrom_eq_some cut

end Bytes
end BlockCache

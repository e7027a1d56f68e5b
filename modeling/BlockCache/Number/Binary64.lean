/-!
# Whole numbers as 64-bit floats

A whole number that passes through a 64-bit float is rounded to 53 significant bits, a tie to the
even neighbour, and then written with the fewest decimal digits that read back as the same float,
padded with zeros up to its size. Numbers below 2 ^ 53 are written as they are.
-/

namespace BlockCache.Binary64

/-- Bits of a number beyond the 53 that a float holds. -/
def excessBits (n : Nat) : Nat := n.log2 + 1 - 53

/-- The float nearest to a number; of two, the one with an even last bit. -/
def round (n : Nat) : Nat :=
  let unit := 1 <<< excessBits n
  let below := n / unit
  let rest := 2 * (n % unit)
  if unit < rest || (rest = unit && below % 2 = 1) then (below + 1) * unit else below * unit

/-- Whether a number is rounded to the float `v`: it is no farther from `v` than halfway to the next
float on its side, and halfway only if `v` has an even last bit. -/
def roundsTo (v n : Nat) : Bool :=
  let unit := 1 <<< excessBits v
  let significand := v / unit
  let above := 2 * unit
  let below := if significand = 1 <<< 52 then unit else 2 * unit
  if significand % 2 = 0 then 4 * v - below ≤ 4 * n && 4 * n ≤ 4 * v + above
  else 4 * v - below < 4 * n && 4 * n < 4 * v + above

/-- The multiple of `step` nearest to a float among its two neighbours that are rounded to it. -/
def onGrid? (v step : Nat) : Option Nat :=
  let low := v / step * step
  let high := low + step
  match roundsTo v low, roundsTo v high with
  | true, true => some (if v - low ≤ high - v then low else high)
  | true, false => some low
  | false, true => some high
  | false, false => none

/-- The number with the fewest significant digits that is rounded to the float `v`. -/
def shortest (v : Nat) : Nat :=
  if v < 1 <<< 53 then v
  else ((List.range 21).reverse.findSome? fun places => onGrid? v (Nat.pow 10 places)).getD v

/-- The text of a number that passes through a float. -/
def text (n : Nat) : String := toString (shortest (round n))

/-- The text of a signed number that passes through a float. -/
def signedText (n : Int) : String := if n < 0 then "-" ++ text n.natAbs else text n.natAbs

example : text 9223372036854775807 = "9223372036854776000" := by decide +kernel

example : text 18446744073709551615 = "18446744073709552000" := by decide +kernel

end BlockCache.Binary64

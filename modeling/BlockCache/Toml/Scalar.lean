import BlockCache.Toml.Value

/-!
# TOML scalars

Numbers, Booleans and points in time. Each is one word of letters, digits and a few signs; a date and
a time of day may be two, with a space between.
-/

namespace BlockCache.Toml

def isBinary (c : Char) : Bool := c = '0' || c = '1'

def isOctal (c : Char) : Bool := '0' ≤ c && c ≤ '7'

def hexValue? (c : Char) : Option Nat :=
  if c.isDigit then some (c.toNat - 48)
  else if 'a' ≤ c && c ≤ 'f' then some (c.toNat - 87)
  else if 'A' ≤ c && c ≤ 'F' then some (c.toNat - 55)
  else none

def isHex (c : Char) : Bool := (hexValue? c).isSome

/-- One or more digits; single underscores may stand between them. -/
def areDigits (isDigit : Char → Bool) : List Char → Bool
  | [] => false
  | [c] => isDigit c
  | c :: '_' :: rest => isDigit c && areDigits isDigit rest
  | c :: rest => isDigit c && areDigits isDigit rest

/-- The number that digits stand for; underscores count for nothing. -/
def digitsValue (base : Nat) (cs : List Char) : Nat :=
  (cs.filterMap hexValue?).foldl (fun acc d => acc * base + d) 0

/-- The number that digits stand for, or `UInt64.size` if it is not below that. -/
def wordValue (base : Nat) (cs : List Char) : Nat :=
  (cs.filterMap hexValue?).foldl (fun acc d => min (acc * base + d) UInt64.size) 0

/-- Decimal digits without a leading zero. -/
def isPlainDecimal (cs : List Char) : Bool := cs == ['0'] || (cs.head? != some '0' && areDigits Char.isDigit cs)

/-- A sign, if there is one, and the rest. -/
def splitSign : List Char → Bool × List Char
  | '-' :: rest => (true, rest)
  | '+' :: rest => (false, rest)
  | cs => (false, cs)

/-- An integer, if it fits 64 bits. -/
def integer? (cs : List Char) : Option Int :=
  let inRange (n : Int) : Option Int := if -0x8000000000000000 ≤ n ∧ n < 0x8000000000000000 then some n else none
  match cs with
  | '0' :: 'x' :: digits => if areDigits isHex digits then inRange (wordValue 16 digits) else none
  | '0' :: 'o' :: digits => if areDigits isOctal digits then inRange (wordValue 8 digits) else none
  | '0' :: 'b' :: digits => if areDigits isBinary digits then inRange (wordValue 2 digits) else none
  | _ =>
    let (negative, digits) := splitSign cs
    if isPlainDecimal digits then
      inRange (if negative then -(wordValue 10 digits) else wordValue 10 digits)
    else none

def isDigitOrUnderscore (c : Char) : Bool := c.isDigit || c = '_'

/-- The least number that is rounded beyond the finite 64-bit floats: halfway between the greatest of
them and the next power of two. It has 309 digits. -/
def overflowLimit : Nat := (1 <<< 1024) - (1 <<< 970)

/-- Whether `digits` times ten to the power of `exponent` is beyond the finite 64-bit floats. Of a number
with 309 digits before the point only those count. -/
def overflows (digits : List Char) (exponent : Int) : Bool :=
  let significant := digits.dropWhile (· = '0')
  let places := significant.length + exponent
  if significant.isEmpty || places < 309 then false
  else 309 < places || overflowLimit ≤ digitsValue 10 ((significant ++ List.replicate 308 '0').take 309)

/-- Appends one digit to an exponent. From 65536 on an exponent takes no more digits: none so great
is needed to leave the range of floats in either direction. -/
def extendExponent (exponent : Nat) (c : Char) : Nat :=
  match hexValue? c with
  | some d => if exponent < 65536 then exponent * 10 + d else exponent
  | none => exponent

/-- The exponent after its letter. -/
def exponent? (cs : List Char) : Option Int :=
  let (negative, digits) := splitSign cs
  if areDigits Char.isDigit digits then
    let magnitude := digits.foldl extendExponent 0
    some (if negative then -magnitude else magnitude)
  else none

/-- Whether a word is a number with a fraction, an exponent or both, or one of the special numbers. A
positive one may not be too great. -/
def isFloat (cs : List Char) : Bool :=
  let (negative, cs) := splitSign cs
  if cs == ['i', 'n', 'f'] || cs == ['n', 'a', 'n'] then true
  else
    let whole := cs.takeWhile isDigitOrUnderscore
    let accept (fraction : List Char) (exponent : Int) : Bool :=
      let places := (fraction.filter Char.isDigit).length
      negative || !overflows ((whole ++ fraction).filter Char.isDigit) (exponent - places)
    isPlainDecimal whole &&
      match cs.dropWhile isDigitOrUnderscore with
      | '.' :: rest =>
        let fraction := rest.takeWhile isDigitOrUnderscore
        areDigits Char.isDigit fraction &&
          match rest.dropWhile isDigitOrUnderscore with
          | [] => accept fraction 0
          | e :: digits => (e = 'e' || e = 'E') && (exponent? digits).any (accept fraction)
      | e :: digits => (e = 'e' || e = 'E') && (exponent? digits).any (accept [])
      | [] => false

/-- A two-digit number. -/
def twoDigits? (a b : Char) : Option Nat :=
  if a.isDigit && b.isDigit then some (digitsValue 10 [a, b]) else none

/-- Days of a month in the Gregorian calendar. -/
def daysInMonth (year month : Nat) : Nat :=
  if month = 2 then if year % 4 = 0 && (year % 100 != 0 || year % 400 = 0) then 29 else 28
  else if month = 4 || month = 6 || month = 9 || month = 11 then 30
  else 31

/-- Takes a date off the front. -/
def takeDate? : List Char → Option (List Char)
  | y₁ :: y₂ :: y₃ :: y₄ :: '-' :: m₁ :: m₂ :: '-' :: d₁ :: d₂ :: rest => do
    let century ← twoDigits? y₁ y₂
    let year ← twoDigits? y₃ y₄
    let month ← twoDigits? m₁ m₂
    let day ← twoDigits? d₁ d₂
    if 1 ≤ month && month ≤ 12 && 1 ≤ day && day ≤ daysInMonth (century * 100 + year) month then some rest
    else none
  | _ => none

/-- Takes a time of day off the front; a leap second is allowed. -/
def takeTime? : List Char → Option (List Char)
  | h₁ :: h₂ :: ':' :: m₁ :: m₂ :: ':' :: s₁ :: s₂ :: rest => do
    let hour ← twoDigits? h₁ h₂
    let minute ← twoDigits? m₁ m₂
    let second ← twoDigits? s₁ s₂
    if hour < 24 && minute < 60 && second ≤ 60 then
      match rest with
      | '.' :: c :: rest => if c.isDigit then some (rest.dropWhile Char.isDigit) else none
      | rest => some rest
    else none
  | _ => none

/-- Whether the rest of a point in time is a distance from universal time. -/
def isOffset : List Char → Bool
  | ['Z'] | ['z'] => true
  | [sign, h₁, h₂, ':', m₁, m₂] =>
    (sign = '+' || sign = '-') && (twoDigits? h₁ h₂).any (· < 24) && (twoDigits? m₁ m₂).any (· < 60)
  | _ => false

/-- Whether the text is a date. -/
def isDate (cs : List Char) : Bool := takeDate? cs == some []

/-- Whether the text is a time of day, a date, or both with or without an offset. -/
def isTime (cs : List Char) : Bool :=
  takeTime? cs == some [] ||
    match takeDate? cs with
    | some [] => true
    | some (delimiter :: rest) =>
      (delimiter = 'T' || delimiter = 't' || delimiter = ' ') &&
        (takeTime? rest).any fun rest => rest.isEmpty || isOffset rest
    | none => false

/-- The value of a word. -/
def scalar? (cs : List Char) : Option Value :=
  if cs = ['t', 'r', 'u', 'e'] then some (.boolean true)
  else if cs = ['f', 'a', 'l', 's', 'e'] then some (.boolean false)
  else match integer? cs with
    | some n => some (.integer n)
    | none => if isFloat cs then some .float else if isTime cs then some .time else none

end BlockCache.Toml

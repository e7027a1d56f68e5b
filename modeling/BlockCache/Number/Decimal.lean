import BlockCache.Text.Bytes

/-!
# Decimal integers

The grammar of integers on the wire, in stored counters and in the environment: an optional sign,
at least one ASCII digit, nothing else, and a value in range. Leading zeros are allowed. Writing
gives the canonical digits, which `readNat?` reads back.
-/

namespace BlockCache.Decimal

/-- The value of an ASCII digit. -/
def digit? (b : UInt8) : Option Nat := if 48 ≤ b && b ≤ 57 then some (b.toNat - 48) else none

/-- Appends one digit to a number that may not pass `max`. -/
def extend (max : Nat) (acc : Nat) (b : UInt8) : Option Nat :=
  match digit? b with
  | none => none
  | some d => if acc * 10 + d ≤ max then some (acc * 10 + d) else none

/-- Reads one or more digits with a value of at most `max`. -/
def readDigits? (max : Nat) : Bytes → Option Nat
  | [] => none
  | b :: rest => (b :: rest).foldlM (extend max) 0

/-- Reads an unsigned number of at most `max`; a plus sign may stand before it. -/
def readNat? (max : Nat) : Bytes → Option Nat
  | 43 :: rest => readDigits? max rest
  | b => readDigits? max b

/-- Reads a signed number; either sign may stand before it. -/
def readInt64? : Bytes → Option Int64
  | 45 :: rest => (readDigits? 0x8000000000000000 rest).map fun n => Int64.ofInt (-n)
  | b => (readNat? 0x7FFFFFFFFFFFFFFF b).map fun n => Int64.ofNat n

def readUInt32? (b : Bytes) : Option UInt32 := (readNat? (UInt32.size - 1) b).map UInt32.ofNat

def readUInt64? (b : Bytes) : Option UInt64 := (readNat? (UInt64.size - 1) b).map UInt64.ofNat

/-- The digits of a number, most significant first, without leading zeros. -/
def digits (n : Nat) : Bytes :=
  if n < 10 then [48 + n.toUInt8] else digits (n / 10) ++ [48 + (n % 10).toUInt8]

end BlockCache.Decimal

import BlockCache.Text.Printable

/-!
# Quoted text

A text between double quotes, as it is shown in diagnostics. Quotes and backslashes are escaped by
a backslash, four control characters have a letter, and every other unprintable character is
written as its code point in braces.
-/

namespace BlockCache.Text

/-- The hexadecimal digits of a code point, small letters, without leading zeros. -/
def hexDigits (n : Nat) : List Char := Nat.toDigits 16 n

/-- One character inside quotes. -/
def quoteChar (c : Char) : List Char :=
  if c = '\x00' then ['\\', '0']
  else if c = '\t' then ['\\', 't']
  else if c = '\r' then ['\\', 'r']
  else if c = '\n' then ['\\', 'n']
  else if c = '\\' then ['\\', '\\']
  else if c = '"' then ['\\', '"']
  else if isPrintable c then [c]
  else ['\\', 'u', '{'] ++ hexDigits c.toNat ++ ['}']

/-- The text between double quotes. -/
def quote (s : String) : String := String.ofList (['"'] ++ s.toList.flatMap quoteChar ++ ['"'])

end BlockCache.Text

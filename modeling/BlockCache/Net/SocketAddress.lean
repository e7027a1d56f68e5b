import BlockCache.Number.Decimal

/-!
# Socket addresses

The syntax of an IP address with a port: four decimal numbers of at most 255 without leading zeros, or
in brackets an IPv6 address, possibly with a numeric scope, then a colon and a 16-bit port. Names
are not looked up here.
-/

namespace BlockCache.SocketAddress

/-- Takes an address part off the front of a text, if there is one. -/
abbrev Scan (α : Type) := List Char → Option (α × List Char)

def digitOf? (base : Nat) (c : Char) : Option Nat :=
  let n := c.toNat
  let d := if 48 ≤ n && n ≤ 57 then n - 48 else if 97 ≤ n && n ≤ 122 then n - 87
    else if 65 ≤ n && n ≤ 90 then n - 55 else base
  if d < base then some d else none

/-- A number of at most `max`; leading zeros only where `padded` says so. -/
def number (base max : Nat) (width : Option Nat) (padded : Bool) : Scan Nat := fun cs =>
  let digits := cs.takeWhile fun c => (digitOf? base c).isSome
  let value := (digits.filterMap (digitOf? base)).foldl (fun acc d => acc * base + d) 0
  if digits.isEmpty || width.any (· < digits.length) || max < value then none
  else if !padded && 1 < digits.length && digits.head? == some '0' then none
  else some (value, cs.drop digits.length)

/-- Takes one given character. -/
def char (c : Char) : Scan Unit
  | d :: rest => if d = c then some ((), rest) else none
  | [] => none

/-- Four numbers between dots. -/
def ipv4 : Scan Unit := fun cs => do
  let octet := number 10 255 (some 3) false
  let (_, cs) ← octet cs
  let (_, cs) ← char '.' cs
  let (_, cs) ← octet cs
  let (_, cs) ← char '.' cs
  let (_, cs) ← octet cs
  let (_, cs) ← char '.' cs
  let (_, cs) ← octet cs
  return ((), cs)

/-- A part that follows a colon unless it is the first. -/
def separated (first : Bool) (part : Scan α) : Scan α := fun cs =>
  if first then part cs else do
    let (_, cs) ← char ':' cs
    part cs

/-- Up to `room` groups of hexadecimal digits, the last two of which may be written as an IPv4
address. Answers how many there are, whether the last were so written, and what follows them. -/
def groups (first : Bool) : (room : Nat) → (read : Nat) → List Char → Nat × Bool × List Char
  | 0, read, cs => (read, false, cs)
  | room + 1, read, cs =>
    match if 0 < room then separated first ipv4 cs else none with
    | some (_, rest) => (read + 2, true, rest)
    | none =>
      match separated first (number 16 65535 (some 4) true) cs with
      | some (_, rest) => groups false room (read + 1) rest
      | none => (read, false, cs)

/-- Eight groups, or fewer around two colons that stand for at least one group of zeros. -/
def ipv6 : Scan Unit := fun cs =>
  let (head, embedded, rest) := groups true 8 0 cs
  if head = 8 then some ((), rest)
  else if embedded then none
  else do
    let (_, rest) ← char ':' rest
    let (_, rest) ← char ':' rest
    let (_, _, rest) := groups true (7 - head) 0 rest
    return ((), rest)

/-- A colon and a port. -/
def port : Scan Unit := fun cs => do
  let (_, cs) ← char ':' cs
  let (_, cs) ← number 10 65535 none true cs
  return ((), cs)

def socketV4 : Scan Unit := fun cs => do
  let (_, cs) ← ipv4 cs
  port cs

/-- The number of a scope after a percent sign, if it comes next. -/
def skipScope (cs : List Char) : List Char :=
  match (do let (_, cs) ← char '%' cs; number 10 (UInt32.size - 1) none true cs) with
  | some (_, rest) => rest
  | none => cs

def socketV6 : Scan Unit := fun cs => do
  let (_, cs) ← char '[' cs
  let (_, cs) ← ipv6 cs
  let (_, cs) ← char ']' (skipScope cs)
  port cs

/-- Whether a text is a socket address and nothing else. -/
def isValid (s : String) : Bool :=
  let whole (scan : Scan Unit) : Bool := (scan s.toList).any (·.2.isEmpty)
  whole socketV4 || whole socketV6

/-- Why a listening address cannot be used at all. -/
inductive Fault where
  /-- No IP address with a port. -/
  | badSyntax
  /-- No colon in front of a port. -/
  | noPort
  /-- A port that is no 16-bit number. -/
  | badPort
  /-- A NUL character in a host name. -/
  | nulInHost
deriving DecidableEq, Repr

def Fault.message : Fault → String
  | badSyntax => "invalid socket address syntax"
  | noPort => "invalid socket address"
  | badPort => "invalid port value"
  | nulInHost => "file name contained an unexpected NUL byte"

/-- The texts before and after the last colon. -/
def splitLastColon? (cs : List Char) : Option (List Char × List Char) :=
  if cs.contains ':' then
    let backwards := cs.reverse
    some ((backwards.dropWhile (· != ':')).tail.reverse, (backwards.takeWhile (· != ':')).reverse)
  else none

/-- What is wrong with an address that has to be numeric. -/
def numericFault? (s : String) : Option Fault := if isValid s then none else some .badSyntax

/-- What is wrong with an address whose host may be a name. The port is judged before the host. -/
def hostFault? (s : String) : Option Fault :=
  if isValid s then none
  else match splitLastColon? s.toList with
    | none => some .noPort
    | some (host, digits) =>
      if (Decimal.readNat? 65535 (Bytes.ofString (String.ofList digits))).isNone then some .badPort
      else if host.contains '\x00' then some .nulInHost
      else none

end BlockCache.SocketAddress

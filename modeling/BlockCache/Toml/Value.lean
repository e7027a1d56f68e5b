/-!
# TOML values

What a TOML text denotes. Each table remembers how it came to be, because that decides whether
later lines may add to it.
-/

namespace BlockCache.Toml

/-- How a table came to be. -/
inductive Origin where
  /-- Named by a header. -/
  | header
  /-- A part of the name in a header further down. -/
  | implied
  /-- A part of a dotted key. -/
  | dotted
  /-- Written in braces. -/
  | braced
deriving DecidableEq, Repr

/-- A TOML value. Numbers with a fraction and points in time are told apart from the other kinds
and not interpreted. -/
inductive Value where
  | string (text : String)
  | integer (n : Int)
  | float
  | boolean (b : Bool)
  | time
  | array (items : List Value)
  | table (origin : Origin) (entries : List (String × Value))
  /-- Tables under one name, each begun by a header in double brackets; the latest comes first. -/
  | tables (items : List (List (String × Value)))

/-- Values by key, in the order in which they were written. -/
abbrev Entries := List (String × Value)

namespace Entries

/-- Gives a key another value, or adds the key at the end. -/
def set (es : Entries) (key : String) (v : Value) : Entries :=
  if (es.lookup key).isSome then es.map fun e => if e.1 = key then (key, v) else e else es ++ [(key, v)]

/-- The tables with the latest one replaced. -/
def setLatest (tables : List Entries) (es : Entries) : List Entries := es :: tables.tail

/-- Adds a value under a dotted key. Parts of the key before the last name tables that dotted keys
have made, or make them; a table that a header names or implies is closed to them. -/
def insert : (path : List String) → (key : String) → Value → Entries → Option Entries
  | [], key, v, es => if (es.lookup key).isSome then none else some (es ++ [(key, v)])
  | part :: path, key, v, es =>
    match es.lookup part with
    | none => (insert path key v []).map fun inner => es.set part (.table .dotted inner)
    | some (.table .dotted inner) => (insert path key v inner).map fun inner => es.set part (.table .dotted inner)
    | some (.table .implied inner) =>
      if path.isEmpty then none
      else (insert path key v inner).map fun inner => es.set part (.table .implied inner)
    | some (.tables items) =>
      if path.isEmpty then none
      else (insert path key v (items.headD [])).map fun inner => es.set part (.tables (setLatest items inner))
    | some _ => none

/-- Changes the table that a header names. -/
def modifyAt (change : Entries → Option Entries) : (path : List String) → Entries → Option Entries
  | [], es => change es
  | part :: path, es =>
    match es.lookup part with
    | some (.table origin inner) => (modifyAt change path inner).map fun inner => es.set part (.table origin inner)
    | some (.tables items) =>
      (modifyAt change path (items.headD [])).map fun inner => es.set part (.tables (setLatest items inner))
    | _ => none

/-- Finds the table that holds the last part of a header's name, making implied tables on the way,
and changes it there. -/
def openHeader (change : String → Entries → Option Entries) : (path : List String) → Entries → Option Entries
  | [], _ => none
  | [key], es => change key es
  | part :: path, es =>
    match es.lookup part with
    | none => (openHeader change path []).map fun inner => es.set part (.table .implied inner)
    | some (.table .braced _) => none
    | some (.table origin inner) => (openHeader change path inner).map fun inner => es.set part (.table origin inner)
    | some (.tables items) =>
      (openHeader change path (items.headD [])).map fun inner => es.set part (.tables (setLatest items inner))
    | some _ => none

/-- Begins the table that a header names. Only a table that was implied before may be begun again. -/
def beginTable (key : String) (es : Entries) : Option Entries :=
  match es.lookup key with
  | none => some (es.set key (.table .header []))
  | some (.table .implied inner) => some (es.set key (.table .header inner))
  | some _ => none

/-- Begins one more table under a header in double brackets. -/
def beginElement (key : String) (es : Entries) : Option Entries :=
  match es.lookup key with
  | none => some (es.set key (.tables [[]]))
  | some (.tables items) => some (es.set key (.tables ([] :: items)))
  | some _ => none

end Entries
end BlockCache.Toml

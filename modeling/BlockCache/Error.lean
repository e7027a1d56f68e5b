/-!
# Errors

What can go wrong, by the part that reports it: the store, the reader of requests, and the program
around them. Each error has one wording, given here.
-/

namespace BlockCache

/-- Why a store refused an operation. -/
inductive StoreError where
  /-- No run of free blocks, or no byte budget, for a value of `requested` bytes. -/
  | outOfSpace (requested available : Nat)
  /-- A region that names no live run of the arena. -/
  | invalidRegion (detail : String)
  /-- A stored value that is no unsigned decimal number. -/
  | notANumber
  /-- Stored bytes that are no item. -/
  | decoding (detail : String)
  /-- The arena has been released. -/
  | closed
  /-- A conditional swap kept finding another value than the one just read. -/
  | contended
deriving DecidableEq, Repr

def StoreError.message : StoreError → String
  | outOfSpace requested available => s!"Out of space: requested {requested} bytes, {available} bytes free"
  | invalidRegion detail => s!"Invalid region: {detail}"
  | notANumber => "Not a numeric value"
  | decoding detail => s!"Element decoding error: {detail}"
  | closed => "Storage is closed"
  | contended => "Storage changed between read and write"

/-- Why a request could not be read. -/
inductive RequestError where
  | invalidCommand (text : String)
  | invalidKey (text : String)
  | invalidFlags
  | invalidExptime
  | invalidLength
  | invalidNumber
  | invalidCas
  | keyTooLong
  /-- Announces more data than a value may hold; the connection skips that data. -/
  | valueTooLarge (length : Nat)
  /-- A data block that does not end where its length says. -/
  | unexpectedData
deriving DecidableEq, Repr

def RequestError.message : RequestError → String
  | invalidCommand text => s!"Invalid command: {text}"
  | invalidKey text => s!"Invalid key: {text}"
  | invalidFlags => "Invalid flags"
  | invalidExptime => "Invalid exptime"
  | invalidLength => "Invalid bytes length"
  | invalidNumber => "Invalid numeric value"
  | invalidCas => "Invalid cas unique"
  | keyTooLong => "Key too long (max 250 bytes)"
  | valueTooLarge length => s!"Value too large ({length} bytes)"
  | unexpectedData => "Unexpected data"

/-- Any error the program reports. -/
inductive Failure where
  | request (error : RequestError)
  | store (error : StoreError)
  | io (text : String)
  | config (text : String)
deriving DecidableEq, Repr

def Failure.message : Failure → String
  | request error => s!"Protocol error: {error.message}"
  | store error => s!"Storage error: {error.message}"
  | io text => s!"IO error: {text}"
  | config text => s!"Configuration error: {text}"

end BlockCache

import BlockCache.Error
import BlockCache.Number.Decimal
import BlockCache.Wire.Request

/-!
# Reading requests

A request is one line of tokens between spaces. A request that stores a value is followed by a data
block of the length it announces and one more line end. Reading takes one request from the front of
what has arrived, or asks for more, or says what is wrong with the line.
-/

namespace BlockCache

/-- The longest line that may stay unfinished. -/
def maxLineLength : Nat := 2048

/-- The longest data block (1 MiB). -/
def maxValueLength : Nat := 1048576

/-- What the bytes that have arrived begin with. -/
inductive Reading where
  /-- A request that occupies the first `consumed` bytes. -/
  | complete (request : Request) (consumed : Nat)
  /-- The start of a request. -/
  | needMore
  /-- A line that is no request. -/
  | refused (error : RequestError)
deriving DecidableEq

namespace Reading

/-- What a line announces before its data block is looked at. -/
inductive Announced where
  /-- The line is the whole request. -/
  | whole (request : Request)
  /-- A data block of `length` bytes completes the request. -/
  | block (length : Nat) (withData : Bytes → Request)

/-- Takes the key off the front of the arguments. -/
def keyArg : List Bytes → Except RequestError (Key × List Bytes)
  | [] => .error (.invalidCommand "missing key")
  | token :: rest =>
    if (Key.mk token).isValid then .ok (⟨token⟩, rest)
    else if Key.maxLength < token.length then .error .keyTooLong
    else .error (.invalidKey (Utf8.lossy token))

/-- Takes a number off the front of the arguments. -/
def numberArg (read? : Bytes → Option α) (fault : RequestError) :
    List Bytes → Except RequestError (α × List Bytes)
  | [] => .error fault
  | token :: rest =>
    match read? token with
    | some n => .ok (n, rest)
    | none => .error fault

/-- The word by which a client declines the reply. -/
def noreplyWord : Bytes := Bytes.ofString "noreply"

def noreplyArg (args : List Bytes) : Bool := args.head? == some noreplyWord

/-- Arguments in any order: declining words, and numbers of which the last one counts. -/
def delayArgs (delay : Int64) (noreply : Bool) : List Bytes → Except RequestError (Int64 × Bool)
  | [] => .ok (delay, noreply)
  | token :: rest =>
    if token = noreplyWord then delayArgs delay true rest
    else match Decimal.readInt64? token with
      | some n => delayArgs n noreply rest
      | none => .error .invalidNumber

def keyArgs (args : List Bytes) : Except RequestError (List Key) :=
  args.mapM fun token => (keyArg [token]).map (·.1)

def getArgs (withCas : Bool) (args : List Bytes) : Except RequestError Request := do
  let keys ← keyArgs args
  if keys.isEmpty then throw (.invalidCommand "get requires at least one key")
  return .get keys withCas

/-- The arguments of a storing request: key, flags, expiry, length, for `cas` the token, and
possibly the declining word. -/
def storeArgs (verb : StoreVerb) (args : List Bytes) : Except RequestError Announced := do
  let (key, args) ← keyArg args
  let (flags, args) ← numberArg Decimal.readUInt32? .invalidFlags args
  let (expire, args) ← numberArg Decimal.readInt64? .invalidExptime args
  let (length, args) ← numberArg (Decimal.readNat? (UInt64.size - 1)) .invalidLength args
  let (cas, args) ← if verb = .cas then numberArg Decimal.readUInt64? .invalidCas args else pure (0, args)
  let noreply := noreplyArg args
  if maxValueLength < length then throw (.valueTooLarge length)
  return .block length fun data => .store verb key flags expire data cas noreply

def deleteArgs (args : List Bytes) : Except RequestError Request := do
  let (key, args) ← keyArg args
  let (hold, noreply) ← delayArgs 0 false args
  return .delete key hold noreply

def countArgs (request : Key → UInt64 → Bool → Request) (args : List Bytes) : Except RequestError Request := do
  let (key, args) ← keyArg args
  let (delta, args) ← numberArg Decimal.readUInt64? .invalidNumber args
  return request key delta (noreplyArg args)

def flushArgs (args : List Bytes) : Except RequestError Request := do
  let (delay, noreply) ← delayArgs 0 false args
  return .flushAll delay noreply

def verbosityArgs (args : List Bytes) : Except RequestError Request := do
  let (_, args) ← numberArg Decimal.readUInt32? .invalidNumber args
  return .verbosity (noreplyArg args)

/-- Whether a token is a command name, in any ASCII case. -/
def names (token : Bytes) (name : String) : Bool := token.map Bytes.lowerAscii == Bytes.ofString name

/-- What a line of tokens announces. -/
def ofTokens : List Bytes → Except RequestError Announced
  | [] => .error (.invalidCommand "empty command")
  | command :: args =>
    if names command "get" then (getArgs false args).map .whole
    else if names command "gets" then (getArgs true args).map .whole
    else match StoreVerb.all.find? fun verb => names command verb.name with
      | some verb => storeArgs verb args
      | none =>
        if names command "delete" then (deleteArgs args).map .whole
        else if names command "incr" then (countArgs .incr args).map .whole
        else if names command "decr" then (countArgs .decr args).map .whole
        else if names command "flush_all" then (flushArgs args).map .whole
        else if names command "stats" then .ok (.whole (.stats (args.headD [])))
        else if names command "version" then .ok (.whole .version)
        else if names command "verbosity" then (verbosityArgs args).map .whole
        else if names command "quit" then .ok (.whole .quit)
        else .error (.invalidCommand (Utf8.lossy command))

/-- Reads the data block that follows the line end of a storing request; `head` is the length of
the line with its end. -/
def ofBlock (head length : Nat) (withData : Bytes → Request) (rest : Bytes) : Reading :=
  match rest.drop length with
  | 13 :: 10 :: _ => .complete (withData (rest.take length)) (head + length + 2)
  | _ :: _ :: _ => .refused .unexpectedData
  | _ => .needMore

/-- Reads one request from the front of the bytes that have arrived. -/
def ofBytes (arrived : Bytes) : Reading :=
  match Bytes.splitLine arrived with
  | none => if maxLineLength < arrived.length then .refused (.invalidCommand "line too long") else .needMore
  | some (line, rest) =>
    match ofTokens (Bytes.tokens line) with
    | .error e => .refused e
    | .ok (.whole request) => .complete request (line.length + 2)
    | .ok (.block length withData) => ofBlock (line.length + 2) length withData rest

/-- A request takes up its line at least. -/
theorem two_le_consumed {arrived : Bytes} {request : Request} {consumed : Nat}
    (read : ofBytes arrived = .complete request consumed) : 2 ≤ consumed := by
  unfold ofBytes at read
  split at read
  · split at read <;> simp at read
  · split at read
    · simp at read
    · obtain ⟨-, rfl⟩ := by simpa using read
      omega
    · unfold ofBlock at read
      split at read
      · obtain ⟨-, rfl⟩ := by simpa using read
        omega
      · simp at read
      · simp at read

/-- A request never takes up more than what has arrived. -/
theorem consumed_le {arrived : Bytes} {request : Request} {consumed : Nat}
    (read : ofBytes arrived = .complete request consumed) : consumed ≤ arrived.length := by
  unfold ofBytes at read
  split at read
  · split at read <;> simp at read
  · rename_i line rest cut
    have whole := Bytes.splitLine_eq_some cut
    split at read
    · simp at read
    · obtain ⟨-, rfl⟩ := by simpa using read
      simp [whole, Bytes.crlf]
    · unfold ofBlock at read
      split at read
      · rename_i _ length _ _ tail ends
        obtain ⟨-, rfl⟩ := by simpa using read
        have := congrArg List.length ends
        simp [whole, Bytes.crlf] at this ⊢
        omega
      · simp at read
      · simp at read

end Reading
end BlockCache

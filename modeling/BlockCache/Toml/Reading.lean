import BlockCache.Toml.Scalar

/-!
# Reading TOML

A reader takes characters off the front of the text, or fails. Loops are bounded by the length of the
whole text, since every turn takes at least one character; nesting is bounded by `maxDepth`.
-/

namespace BlockCache.Toml

/-- Takes a value off the front of the text, if there is one. It knows the length of the whole text. -/
abbrev Reader (α : Type) := ReaderT Nat (StateT (List Char) Option) α

namespace Reader

/-- The length of the whole text, which no loop over it exceeds. -/
def bound : Reader Nat := MonadReader.read

/-- Takes a character if it comes next; says whether it did. -/
def accept (c : Char) : Reader Bool := do
  match ← get with
  | d :: rest => if d = c then set rest; return true else return false
  | [] => return false

/-- Takes a character that has to come next. -/
def expect (c : Char) : Reader Unit := do
  unless ← accept c do failure

/-- Takes all characters of a class. -/
def takeAll (wanted : Char → Bool) : Reader (List Char) := do
  let cs ← get
  set (cs.dropWhile wanted)
  return cs.takeWhile wanted

def isSpace (c : Char) : Bool := c = ' ' || c = '\t'

def skipSpaces : Reader Unit := modify (·.dropWhile isSpace)

/-- Takes a line end if it comes next; says whether it did. -/
def acceptLineEnd : Reader Bool := do
  match ← get with
  | '\n' :: rest => set rest; return true
  | '\r' :: '\n' :: rest => set rest; return true
  | _ => return false

/-- Characters other than controls; the tab is not one of them. -/
def isText (c : Char) : Bool := c = '\t' || (' ' ≤ c && c != '\x7f')

/-- Skips spaces and a comment. -/
def skipComment : Reader Unit := do
  skipSpaces
  if ← accept '#' then discard (takeAll isText)

/-- Ends an expression: spaces, a comment, and the end of the line or of the text. -/
def endLine : Reader Unit := do
  skipComment
  unless ← acceptLineEnd do
    unless (← get).isEmpty do failure

/-- Skips spaces, comments and line ends, `limit` lines at most. -/
def skipLinesUpTo : (limit : Nat) → Reader Unit
  | 0 => pure ()
  | limit + 1 => do
    skipComment
    if ← acceptLineEnd then skipLinesUpTo limit

/-- Skips spaces, comments and line ends. -/
def skipLines : Reader Unit := do skipLinesUpTo (← bound)

/-! ## Strings -/

/-- The character with a code point in hexadecimal digits. -/
def codePoint? (digits : List Char) : Option Char := do
  let values ← digits.mapM hexValue?
  let n := values.foldl (fun acc d => acc * 16 + d) 0
  if n.isValidChar then some (Char.ofNat n) else none

/-- The character that a letter after a backslash stands for. -/
def escape? : Char → Option Char
  | 'b' => some '\x08'
  | 't' => some '\t'
  | 'n' => some '\n'
  | 'f' => some '\x0c'
  | 'r' => some '\r'
  | '"' => some '"'
  | '\\' => some '\\'
  | _ => none

/-- Takes an escape sequence after its backslash. -/
def takeEscape? : List Char → Option (Char × List Char)
  | 'u' :: a :: b :: c :: d :: rest => (codePoint? [a, b, c, d]).map (·, rest)
  | 'U' :: a :: b :: c :: d :: e :: f :: g :: h :: rest => (codePoint? [a, b, c, d, e, f, g, h]).map (·, rest)
  | c :: rest => (escape? c).map (·, rest)
  | [] => none

/-- Reads a quoted string after its opening quote; `read` is what has been read, last first. -/
def basicUpTo : (limit : Nat) → (read : List Char) → Reader String
  | 0, _ => failure
  | limit + 1, read => do
    match ← get with
    | '"' :: rest => set rest; return .ofList read.reverse
    | '\\' :: rest =>
      let (c, rest) ← takeEscape? rest
      set rest
      basicUpTo limit (c :: read)
    | c :: rest =>
      if isText c then set rest; basicUpTo limit (c :: read) else failure
    | [] => failure

/-- Reads a string between single quotes after the opening one. -/
def literal : Reader String := do
  let text ← takeAll fun c => isText c && c != '\''
  expect '\''
  return .ofList text

/-- Takes up to two more quotes, which belong to a string of several lines that ends in them. -/
def extraQuotes (quote : Char) : Reader (List Char) := do
  if ← accept quote then
    if ← accept quote then return [quote, quote] else return [quote]
  else return []

/-- Whether a backslash is the last visible character of its line. -/
def continuesLine (cs : List Char) : Bool :=
  match cs.dropWhile isSpace with
  | '\n' :: _ | '\r' :: '\n' :: _ => true
  | _ => false

/-- Skips white space and line ends, `limit` of them at most. -/
def skipBlankLinesUpTo : (limit : Nat) → Reader Unit
  | 0 => pure ()
  | limit + 1 => do
    skipSpaces
    if ← acceptLineEnd then skipBlankLinesUpTo limit

/-- Reads a quoted string of several lines after its opening quotes and first line end. -/
def basicLinesUpTo : (limit : Nat) → (read : List Char) → Reader String
  | 0, _ => failure
  | limit + 1, read => do
    match ← get with
    | '"' :: '"' :: '"' :: rest =>
      set rest
      return .ofList (read.reverse ++ (← extraQuotes '"'))
    | '\\' :: rest =>
      if continuesLine rest then
        set rest
        skipBlankLinesUpTo (← bound)
        basicLinesUpTo limit read
      else
        let (c, rest) ← takeEscape? rest
        set rest
        basicLinesUpTo limit (c :: read)
    | '\n' :: rest | '\r' :: '\n' :: rest => set rest; basicLinesUpTo limit ('\n' :: read)
    | c :: rest =>
      if isText c then set rest; basicLinesUpTo limit (c :: read) else failure
    | [] => failure

/-- Reads a string between triple single quotes after its opening quotes and first line end. -/
def literalLinesUpTo : (limit : Nat) → (read : List Char) → Reader String
  | 0, _ => failure
  | limit + 1, read => do
    match ← get with
    | '\'' :: '\'' :: '\'' :: rest =>
      set rest
      return .ofList (read.reverse ++ (← extraQuotes '\''))
    | '\n' :: rest | '\r' :: '\n' :: rest => set rest; literalLinesUpTo limit ('\n' :: read)
    | c :: rest =>
      if isText c then set rest; literalLinesUpTo limit (c :: read) else failure
    | [] => failure

/-- Reads a string of any kind, if one comes next. -/
def string? : Reader (Option String) := do
  let limit ← bound
  match ← get with
  | '"' :: '"' :: '"' :: rest =>
    set rest
    discard acceptLineEnd
    return some (← basicLinesUpTo limit [])
  | '"' :: rest => set rest; return some (← basicUpTo limit [])
  | '\'' :: '\'' :: '\'' :: rest =>
    set rest
    discard acceptLineEnd
    return some (← literalLinesUpTo limit [])
  | '\'' :: rest => set rest; return some (← literal)
  | _ => return none

/-! ## Keys -/

def isBareKeyChar (c : Char) : Bool := c.isAlphanum || c = '_' || c = '-'

/-- Reads one part of a key. -/
def keyPart : Reader String := do
  match ← get with
  | '"' :: rest => set rest; basicUpTo (← bound) []
  | '\'' :: rest => set rest; literal
  | _ =>
    let bare ← takeAll isBareKeyChar
    if bare.isEmpty then failure
    return .ofList bare

/-- The most values that may be nested, and the most parts of a key. -/
def maxDepth : Nat := 79

/-- Reads the parts of a dotted key, `limit` at most. -/
def keyUpTo : (limit : Nat) → Reader (List String)
  | 0 => failure
  | limit + 1 => do
    skipSpaces
    let part ← keyPart
    skipSpaces
    if ← accept '.' then return part :: (← keyUpTo limit) else return [part]

def key : Reader (List String) := keyUpTo maxDepth

/-! ## Values -/

def isWordChar (c : Char) : Bool := c.isAlphanum || c = '+' || c = '-' || c = '_' || c = '.' || c = ':'

/-- Reads a word; a time of day after a date and a space belongs to it. -/
def word : Reader (List Char) := do
  let first ← takeAll isWordChar
  match ← get with
  | ' ' :: c :: rest =>
    if isDate first && c.isDigit then
      set (c :: rest)
      return first ++ ' ' :: (← takeAll isWordChar)
    else return first
  | _ => return first

def scalar : Reader Value := do
  match ← string? with
  | some s => return .string s
  | none => scalar? (← word)

/-- Reads the items of an array up to its closing bracket. -/
def itemsUpTo (item : Reader Value) : (limit : Nat) → Reader (List Value)
  | 0 => failure
  | limit + 1 => do
    skipLines
    if ← accept ']' then return []
    let v ← item
    skipLines
    if ← accept ',' then return v :: (← itemsUpTo item limit)
    expect ']'
    return [v]

/-- Reads the entries of a table in braces up to its closing brace. -/
def bracedUpTo (item : Reader Value) : (limit : Nat) → Entries → Reader Entries
  | 0, _ => failure
  | limit + 1, es => do
    let path ← key
    expect '='
    skipSpaces
    let v ← item
    skipSpaces
    let es ← Entries.insert path.dropLast (path.getLastD "") v es
    if ← accept ',' then bracedUpTo item limit es
    else
      expect '}'
      return es

/-- Reads a value in which at most `depth` values are nested. -/
def value : (depth : Nat) → Reader Value
  | 0 => scalar
  | depth + 1 => do
    match ← get with
    | '[' :: rest =>
      set rest
      return .array (← itemsUpTo (value depth) (← bound))
    | '{' :: rest =>
      set rest
      skipSpaces
      if ← accept '}' then return .table .braced []
      return .table .braced (← bracedUpTo (value depth) (← bound) [])
    | _ => scalar

/-! ## Documents -/

/-- The entries read so far, and the header that the next ones belong to. -/
structure Document where
  entries : Entries := []
  header : List String := []

/-- Reads one line: a header, or a key and its value. -/
def expression (d : Document) : Reader Document := do
  match ← get with
  | '[' :: '[' :: rest =>
    set rest
    let path ← key
    expect ']'
    expect ']'
    return { entries := ← Entries.openHeader Entries.beginElement path d.entries, header := path }
  | '[' :: rest =>
    set rest
    let path ← key
    expect ']'
    return { entries := ← Entries.openHeader Entries.beginTable path d.entries, header := path }
  | _ =>
    let path ← key
    expect '='
    skipSpaces
    let v ← value maxDepth
    let entries ← Entries.modifyAt (Entries.insert path.dropLast (path.getLastD "") v) d.header d.entries
    return { d with entries }

/-- Reads all lines, `limit` at most. -/
def linesUpTo : (limit : Nat) → Document → Reader Document
  | 0, d => return d
  | limit + 1, d => do
    skipSpaces
    match ← get with
    | [] => return d
    | '#' :: _ | '\n' :: _ | '\r' :: _ => endLine; linesUpTo limit d
    | _ =>
      let d ← expression d
      endLine
      linesUpTo limit d

end Reader

/-- The entries of a TOML text, if it is one. A byte order mark in front of it is passed over. -/
def read? (text : String) : Option Entries :=
  let cs := match text.toList with
    | '\uFEFF' :: rest => rest
    | cs => cs
  (((Reader.linesUpTo (cs.length + 1) {}).run cs.length).run cs).map (·.1.entries)

end BlockCache.Toml

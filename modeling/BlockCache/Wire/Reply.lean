import BlockCache.Key
import BlockCache.Number.Decimal

/-!
# Replies

What the server sends. Every reply is one line, or for a value one line and its data; the replies to
a read end with `END`.
-/

namespace BlockCache

/-- One reply, or one part of the reply to a read. -/
inductive Reply where
  | value (key : Bytes) (flags : UInt32) (data : Bytes)
  | valueWithCas (key : Bytes) (flags : UInt32) (data : Bytes) (cas : UInt64)
  /-- Ends the values or statistics before it. -/
  | finish
  | stored
  | notStored
  /-- The item was written since its token was read. -/
  | changed
  | notFound
  | deleted
  | ok
  /-- A request that was not understood. -/
  | error
  | number (value : UInt64)
  | stat (name figure : String)
  | version (text : String)
  | clientError (message : String)
  | serverError (message : String)
deriving DecidableEq

namespace Reply

def text (s : String) : Bytes := Bytes.ofString s

/-- A line with its end. -/
def line (content : Bytes) : Bytes := content ++ Bytes.crlf

/-- Key, flags and length of a value, as its line gives them. -/
def valueHead (key : Bytes) (flags : UInt32) (data : Bytes) : Bytes :=
  text "VALUE " ++ key ++ [32] ++ Decimal.digits flags.toNat ++ [32] ++ Decimal.digits data.length

/-- The bytes on the wire. -/
def render : Reply → Bytes
  | value key flags data => line (valueHead key flags data) ++ line data
  | valueWithCas key flags data cas =>
    line (valueHead key flags data ++ [32] ++ Decimal.digits cas.toNat) ++ line data
  | finish => line (text "END")
  | stored => line (text "STORED")
  | notStored => line (text "NOT_STORED")
  | changed => line (text "EXISTS")
  | notFound => line (text "NOT_FOUND")
  | deleted => line (text "DELETED")
  | ok => line (text "OK")
  | error => line (text "ERROR")
  | number n => line (Decimal.digits n.toNat)
  | stat name figure => line (text "STAT " ++ text name ++ [32] ++ text figure)
  | version s => line (text "VERSION " ++ text s)
  | clientError s => line (text "CLIENT_ERROR " ++ text s)
  | serverError s => line (text "SERVER_ERROR " ++ text s)

/-- Several replies, one after the other. -/
def renderAll (replies : List Reply) : Bytes := replies.flatMap render

end Reply
end BlockCache

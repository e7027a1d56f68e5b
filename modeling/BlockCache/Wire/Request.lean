import BlockCache.Key

/-!
# Requests

What a client can ask for. A request may say that it wants no reply.
-/

namespace BlockCache

/-- The requests that carry a value to store. -/
inductive StoreVerb where
  | set
  | add
  | replace
  | append
  | prepend
  /-- Stores only over the write that its token names. -/
  | cas
deriving DecidableEq, Repr

namespace StoreVerb

def name : StoreVerb → String
  | set => "set"
  | add => "add"
  | replace => "replace"
  | append => "append"
  | prepend => "prepend"
  | cas => "cas"

def all : List StoreVerb := [set, add, replace, append, prepend, cas]

end StoreVerb

/-- A request of a client. -/
inductive Request where
  /-- `withCas` asks for the CAS value of each item as well. -/
  | get (keys : List Key) (withCas : Bool)
  | store (verb : StoreVerb) (key : Key) (flags : UInt32) (expire : Int64) (data : Bytes)
      (cas : UInt64) (noreply : Bool)
  | delete (key : Key) (hold : Int64) (noreply : Bool)
  | incr (key : Key) (delta : UInt64) (noreply : Bool)
  | decr (key : Key) (delta : UInt64) (noreply : Bool)
  | flushAll (delay : Int64) (noreply : Bool)
  | stats (arg : Bytes)
  | version
  | verbosity (noreply : Bool)
  | quit
deriving DecidableEq

namespace Request

/-- The name under which the request is counted. -/
def name : Request → String
  | get _ false => "get"
  | get _ true => "gets"
  | store verb .. => verb.name
  | delete .. => "delete"
  | incr .. => "incr"
  | decr .. => "decr"
  | flushAll .. => "flush_all"
  | stats _ => "stats"
  | version => "version"
  | verbosity _ => "verbosity"
  | quit => "quit"

/-- Whether the client wants no reply. -/
def isNoreply : Request → Bool
  | store _ _ _ _ _ _ noreply | delete _ _ noreply | incr _ _ noreply | decr _ _ noreply
  | flushAll _ noreply | verbosity noreply => noreply
  | _ => false

end Request
end BlockCache

import BlockCache.Cache.Stats
import BlockCache.Cache.Verbs
import BlockCache.Metrics.Basic
import BlockCache.Text.Utf8
import BlockCache.Wire.Reply
import BlockCache.Wire.Request

/-!
# The service

A cache in use: with its metrics, the clock it is asked at, and the flushes that are still to come.
`execute` carries out one request and gives the replies to it; `setClock` lets time pass.
-/

namespace BlockCache

/-- A cache in use. -/
structure Service where
  cache : Cache
  metrics : Metrics := {}
  /-- When the flushes to come are due. -/
  flushes : List Int := []
  /-- Seconds since 1970. -/
  clock : Int
  /-- The process that serves, as the statistics name it. -/
  processId : Nat

/-- The name and version that a client is told. -/
def serverVersion : String := s!"arenacache {programVersion}"

/-- The reply to a storing verb. -/
def StoreAnswer.reply : StoreAnswer → Reply
  | stored => .stored
  | notStored => .notStored
  | changed => .changed
  | notFound => .notFound

/-- The reply to a delete. -/
def DeleteAnswer.reply : DeleteAnswer → Reply
  | deleted => .deleted
  | notFound => .notFound

/-- The verb that a storing request asks for. -/
def StoreVerb.step (verb : StoreVerb) (c : Cache) (now : Int64) (item : Item) (token : UInt64) :
    Cache.Step StoreAnswer :=
  match verb with
  | set => c.set item
  | add => c.add now item
  | replace => c.replace now item
  | append => c.append now item
  | prepend => c.prepend now item
  | cas => c.cas now item token

/-- One item of the reply to a read. -/
def Item.reply (withCas : Bool) (i : Item) : Reply :=
  if withCas then .valueWithCas i.key.bytes i.flags i.data i.cas else .value i.key.bytes i.flags i.data

namespace Service

/-- The time that items are judged by; before 1970 it is 0. -/
def now (s : Service) : Int64 := Int64.ofIntClamp (max s.clock 0)

/-- The reply to a request that the store refused. Only a payload that is no number is the client's
own fault. -/
def storeFault (s : Service) (e : StoreError) : List Reply × Service :=
  let counted := { s with metrics.storageErrors := s.metrics.storageErrors + 1 }
  match e with
  | .notANumber => ([.clientError "cannot increment or decrement non-numeric value"], s)
  | .outOfSpace .. => ([.serverError "out of memory storing object"], counted)
  | e => ([.serverError e.message], counted)

/-- Takes over a step of the cache and replies to it. -/
def take (s : Service) (step : Cache.Step α) (reply : α → Reply) : List Reply × Service :=
  match step with
  | (.ok answer, cache) => ([reply answer], { s with cache })
  | (.error e, cache) => { s with cache }.storeFault e

/-- Reads items, and counts which keys had one. -/
def read (s : Service) (keys : List Key) (withCas : Bool) : List Reply × Service :=
  match s.cache.get s.now keys with
  | (.error e, cache) => { s with cache }.storeFault e
  | (.ok found, cache) =>
    (found.map (Item.reply withCas) ++ [.finish], { s with
      cache
      metrics.getHits := s.metrics.getHits + found.length
      metrics.getMisses := s.metrics.getMisses + (keys.length - found.length) })

/-- The largest step of a number, which longer ones are cut to. -/
def cutDelta (delta : UInt64) : Int64 := Int64.ofNat (min delta.toNat 0x7FFFFFFFFFFFFFFF)

def addNumber (s : Service) (key : Key) (delta : Int64) : List Reply × Service :=
  s.take (s.cache.addNumber s.now key delta) fun
    | some sum => .number sum
    | none => .notFound

/-- How many seconds a flush waits. The difference of the two times is a 64-bit word, which wraps, as in a build
that does not check for overflow: a time too far in the past comes out as one far ahead. -/
def flushWait (s : Service) (delay : Int64) : Int64 :=
  match resolveExpiry delay s.now with
  | some due => due - s.now
  | none => 0

/-- Flushes at once, or later if the delay points to the future. -/
def flush (s : Service) (delay : Int64) : Service :=
  let wait := s.flushWait delay
  if wait ≤ 0 then { s with cache := s.cache.flushAll }
  else { s with flushes := s.flushes ++ [s.clock + wait.toInt] }

/-- What the service shows for `arg`; those about connections are shown only without one. -/
def stats (s : Service) (arg : Bytes) : Stats :=
  let shown := s.cache.stat s.now s.processId (Utf8.lossy arg)
  if arg.isEmpty then s.metrics.extend shown else shown

def statReplies (s : Service) (arg : Bytes) : List Reply :=
  ((s.stats arg).lines.map fun line => .stat line.1 line.2) ++ [.finish]

/-- Carries out a request, before it is counted. -/
def perform (s : Service) : Request → List Reply × Service
  | .get keys withCas => s.read keys withCas
  | .store verb key flags expire data cas _ =>
    s.take (verb.step s.cache s.now { key, flags, expire, data, storedAt := s.now } cas) StoreAnswer.reply
  | .delete key hold _ => s.take (s.cache.delete s.now key hold) DeleteAnswer.reply
  | .incr key delta _ => s.addNumber key (cutDelta delta)
  | .decr key delta _ => s.addNumber key (-cutDelta delta)
  | .flushAll delay _ => ([.ok], s.flush delay)
  | .stats arg => (s.statReplies arg, s)
  | .version => ([.version serverVersion], s)
  | .verbosity _ => ([.ok], s)
  | .quit => ([], s)

/-- Counts and carries out a request. -/
def execute (s : Service) (r : Request) : List Reply × Service :=
  let counted := s.metrics.recordCommand r.name
  { s with metrics := { counted with timed := counted.timed + 1 } }.perform r

/-- Sets the clock; the flushes that are due by then happen. -/
def setClock (s : Service) (clock : Int) : Service :=
  { s with
    clock
    cache := if s.flushes.any (· ≤ clock) then s.cache.flushAll else s.cache
    flushes := s.flushes.filter (clock < ·) }

end Service
end BlockCache

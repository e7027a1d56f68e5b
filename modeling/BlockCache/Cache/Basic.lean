import BlockCache.Item.Edit
import BlockCache.Store

/-!
# The cache

A store with the counters of its use. What clients see of it at a given time are the live items:
an item found expired or past its hold is removed, and one still held back is passed over. The
verbs that depend on the present item read it and then swap it for another; a swap that finds
something else under the key is tried again from the reading on.
-/

namespace BlockCache

/-- How often the cache was used. -/
structure Counters where
  /-- Keys asked for. -/
  gets : Nat := 0
  /-- Storing requests. -/
  sets : Nat := 0
  hits : Nat := 0
  misses : Nat := 0
  /-- Items stored by the verbs that bring a whole value. -/
  totalItems : Nat := 0
deriving DecidableEq, Repr

/-- A store, its counters, and when it was started. -/
structure Cache where
  store : Store
  counters : Counters := {}
  started : Int64

/-- The answer to a storing verb. -/
inductive StoreAnswer where
  | stored
  | notStored
  /-- Another write has been made since the one that the token names. -/
  | changed
  | notFound
deriving DecidableEq, Repr

/-- The answer to a delete. -/
inductive DeleteAnswer where
  | deleted
  | notFound
deriving DecidableEq, Repr

/-- How one pass of reading and swapping came out. -/
inductive Pass (α : Type) where
  | answered (answer : α)
  /-- The swap found something else than was read. -/
  | lost
deriving DecidableEq, Repr

/-- The gauges of a store. -/
structure Snapshot where
  items : Nat
  bytes : Nat
  limit : Nat
  evictions : Nat
deriving DecidableEq, Repr

namespace Cache

/-- An empty cache as configured. -/
def new (s : StorageSettings) (now : Int64) : Cache := { store := .new s, started := now }

/-- A step that may be refused; the cache after it is answered either way. -/
abbrev Step (α : Type) := Except StoreError α × Cache

/-- The readable item under a key. One that is expired or past its hold is removed. -/
def live (c : Cache) (now : Int64) (key : Key) : Step (Option Item) :=
  match c.store.get key with
  | (.error e, store) => (.error e, { c with store })
  | (.ok none, store) => (.ok none, { c with store })
  | (.ok (some item), store) =>
    if item.isPurgeableAt now then
      match store.removeIf item with
      | (.error e, store) => (.error e, { c with store })
      | (.ok _, store) => (.ok none, { c with store })
    else if item.isHeldAt now then (.ok none, { c with store })
    else (.ok (some item), { c with store })

/-- Swaps `present` for `item`, to give `answer`. -/
def swap (c : Cache) (present item : Item) (answer : α) : Step (Pass α) :=
  match c.store.replace present item with
  | (.error e, store) => (.error e, { c with store })
  | (.ok true, store) => (.ok (.answered answer), { c with store })
  | (.ok false, store) => (.ok .lost, { c with store })

/-- Removes `present`, to give `answer`. -/
def drop (c : Cache) (present : Item) (answer : α) : Step (Pass α) :=
  match c.store.removeIf present with
  | (.error e, store) => (.error e, { c with store })
  | (.ok true, store) => (.ok (.answered answer), { c with store })
  | (.ok false, store) => (.ok .lost, { c with store })

/-- Reads the live item under a key and answers `absent`, or goes on with the item. -/
def onLive (c : Cache) (now : Int64) (key : Key) (absent : α) (present : Cache → Item → Step (Pass α)) :
    Step (Pass α) :=
  match c.live now key with
  | (.error e, c) => (.error e, c)
  | (.ok none, c) => (.ok (.answered absent), c)
  | (.ok (some item), c) => present c item

/-- Repeats a pass until it answers, `limit` times at most. -/
def repeatPass (pass : Cache → Step (Pass α)) : (limit : Nat) → Cache → Step α
  | 0, c => (.error .contended, c)
  | limit + 1, c =>
    match pass c with
    | (.error e, c) => (.error e, c)
    | (.ok (.answered answer), c) => (.ok answer, c)
    | (.ok .lost, c) => repeatPass pass limit c

/-- Passes that a verb makes before it gives up. The first one answers unless somebody else writes
to the store between its reading and its swap. -/
def passLimit : Nat := 1000

/-- Repeats a pass until it answers. -/
def settle (c : Cache) (pass : Cache → Step (Pass α)) : Step α := repeatPass pass passLimit c

def countSet (c : Cache) : Cache := { c with counters.sets := c.counters.sets + 1 }

/-- Counts the item if the verb stored it. -/
def countStored : Step StoreAnswer → Step StoreAnswer
  | (.ok .stored, c) => (.ok .stored, { c with counters.totalItems := c.counters.totalItems + 1 })
  | step => step

def countHit (c : Cache) : Cache :=
  { c with counters.gets := c.counters.gets + 1, counters.hits := c.counters.hits + 1 }

def countMiss (c : Cache) : Cache :=
  { c with counters.gets := c.counters.gets + 1, counters.misses := c.counters.misses + 1 }

def snapshot (c : Cache) : Snapshot :=
  ⟨c.store.size, c.store.memoryUsed, c.store.memoryCapacity, c.store.evictions⟩

end Cache
end BlockCache

import BlockCache.Cache.Basic

/-!
# The verbs of the cache

What clients can do, at a given time. Each verb that depends on the present item is one pass, made
until it answers.
-/

namespace BlockCache.Cache

/-- Stores an item whatever its key holds. -/
def set (c : Cache) (item : Item) : Step StoreAnswer :=
  match c.countSet.store.put item with
  | (.error e, store) => (.error e, { c.countSet with store })
  | (.ok _, store) => countStored (.ok .stored, { c.countSet with store })

/-- Stores an item unless its key is empty; a dead item is swapped. -/
def addPass (now : Int64) (item : Item) (c : Cache) : Step (Pass StoreAnswer) :=
  match c.store.putIfAbsent item with
  | (.error e, store) => (.error e, { c with store })
  | (.ok none, store) => (.ok (.answered .stored), { c with store })
  | (.ok (some present), store) =>
    if present.isLiveAt now then (.ok (.answered .notStored), { c with store })
    else { c with store }.swap present item .stored

/-- Stores an item if there is no live one under its key. -/
def add (c : Cache) (now : Int64) (item : Item) : Step StoreAnswer :=
  countStored (c.countSet.settle (addPass now item))

def replacePass (now : Int64) (item : Item) (c : Cache) : Step (Pass StoreAnswer) :=
  c.onLive now item.key .notStored fun c present => c.swap present item .stored

/-- Stores an item if there is a live one under its key. -/
def replace (c : Cache) (now : Int64) (item : Item) : Step StoreAnswer :=
  countStored (c.countSet.settle (replacePass now item))

def casPass (now : Int64) (item : Item) (token : UInt64) (c : Cache) : Step (Pass StoreAnswer) :=
  c.onLive now item.key .notFound fun c present =>
    if present.cas = token then c.swap present item .stored else (.ok (.answered .changed), c)

/-- Stores an item if the live one under its key is the write that `token` names. -/
def cas (c : Cache) (now : Int64) (item : Item) (token : UInt64) : Step StoreAnswer :=
  countStored (c.countSet.settle (casPass now item token))

def combinePass (now : Int64) (combine : Item → Item → Item) (item : Item) (c : Cache) :
    Step (Pass StoreAnswer) :=
  c.onLive now item.key .notFound fun c present => c.swap present (combine present item) .stored

/-- Adds the item's data after that of the live one under its key. -/
def append (c : Cache) (now : Int64) (item : Item) : Step StoreAnswer :=
  c.countSet.settle (combinePass now Item.append item)

/-- Adds the item's data before that of the live one under its key. -/
def prepend (c : Cache) (now : Int64) (item : Item) : Step StoreAnswer :=
  c.countSet.settle (combinePass now Item.prepend item)

def deletePass (now : Int64) (key : Key) (hold : Int64) (c : Cache) : Step (Pass DeleteAnswer) :=
  c.onLive now key .notFound fun c present =>
    if 0 < hold then c.swap present (present.hold ((resolveExpiry hold now).getD now)) .deleted
    else c.drop present .deleted

/-- Removes the live item under a key, or with a positive `hold` makes it unreadable for so long
before it is removed. -/
def delete (c : Cache) (now : Int64) (key : Key) (hold : Int64) : Step DeleteAnswer :=
  c.settle (deletePass now key hold)

def addNumberPass (now : Int64) (key : Key) (delta : Int64) (c : Cache) : Step (Pass (Option UInt64)) :=
  c.onLive now key none fun c present =>
    match present.add delta with
    | .error e => (.error e, c)
    | .ok (updated, value) => c.swap present updated (some value)

/-- Adds to the number that the live item under a key holds, and answers the sum. -/
def addNumber (c : Cache) (now : Int64) (key : Key) (delta : Int64) : Step (Option UInt64) :=
  c.settle (addNumberPass now key delta)

/-- Reads the live items of some keys; `found` are those read so far, last one first. -/
def getFrom (now : Int64) (found : List Item) : List Key → Cache → Step (List Item)
  | [], c => (.ok found.reverse, c)
  | key :: keys, c =>
    match c.live now key with
    | (.error e, c) => (.error e, { c with counters.gets := c.counters.gets + 1 })
    | (.ok none, c) => getFrom now found keys c.countMiss
    | (.ok (some item), c) => getFrom now (item :: found) keys c.countHit

/-- The live items of some keys, in the order of the keys. -/
def get (c : Cache) (now : Int64) (keys : List Key) : Step (List Item) := getFrom now [] keys c

/-- Removes every item. -/
def flushAll (c : Cache) : Cache := { c with store := c.store.clear }

/-- Removes every item and gives the memory back. -/
def close (c : Cache) : Cache := { c with store := c.store.close }

end BlockCache.Cache

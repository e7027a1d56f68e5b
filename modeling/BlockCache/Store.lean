import BlockCache.Index
import BlockCache.MemoryStore

/-!
# Stores

The two ways of keeping items behind one set of operations. Each operation answers its result and
the store after it; a refused operation answers an error. Every item stored gets the next CAS value
of its store, whatever value it came with.
-/

namespace BlockCache

/-- Items, kept in arenas or in a map. -/
inductive Store where
  | blocks (index : Index)
  | memory (map : MemoryStore)

namespace Store

/-- An empty store as configured. -/
def new (s : StorageSettings) : Store :=
  match s.backend with
  | .block => .blocks (.new s)
  | .memory => .memory (.new s.maxItems s.maxBytes s.eviction)

/-- The item under a key. -/
def get (s : Store) (key : Key) : Except StoreError (Option Item) × Store :=
  match s with
  | blocks x => let (answer, x) := x.get key; (answer, blocks x)
  | memory m => let (answer, m) := m.get key; (.ok answer, memory m)

/-- Stores an item and answers what its key held. -/
def put (s : Store) (item : Item) : Except StoreError (Option Item) × Store :=
  match s with
  | blocks x => let (answer, x) := x.put item; (answer, blocks x)
  | memory m => let (answer, m) := m.put item; (answer, memory m)

/-- Stores an item if its key holds none, and otherwise answers what the key holds. -/
def putIfAbsent (s : Store) (item : Item) : Except StoreError (Option Item) × Store :=
  match s with
  | blocks x => let (answer, x) := x.putIfAbsent item; (answer, blocks x)
  | memory m => let (answer, m) := m.putIfAbsent item; (answer, memory m)

/-- Stores an item if its key holds exactly `expected`; says whether it did. -/
def replace (s : Store) (expected item : Item) : Except StoreError Bool × Store :=
  match s with
  | blocks x => let (answer, x) := x.replace expected item; (answer, blocks x)
  | memory m => let (answer, m) := m.replace expected item; (answer, memory m)

/-- Removes the entry of a key and answers the item it held. -/
def remove (s : Store) (key : Key) : Except StoreError (Option Item) × Store :=
  match s with
  | blocks x => let (answer, x) := x.remove key; (answer, blocks x)
  | memory m => let (answer, m) := m.remove key; (.ok answer, memory m)

/-- Removes the entry of `expected` if it holds exactly that; says whether it did. -/
def removeIf (s : Store) (expected : Item) : Except StoreError Bool × Store :=
  match s with
  | blocks x => let (answer, x) := x.removeIf expected; (answer, blocks x)
  | memory m => let (answer, m) := m.removeIf expected; (.ok answer, memory m)

def contains : Store → Key → Bool
  | blocks x, key => x.contains key
  | memory m, key => m.contains key

/-- Entries stored. -/
def size : Store → Nat
  | blocks x => x.size
  | memory m => m.size

/-- Every key stored, in no particular order. -/
def keys : Store → List Key
  | blocks x => x.keys
  | memory m => m.keys

/-- Removes every entry. -/
def clear : Store → Store
  | blocks x => blocks x.clear
  | memory m => memory m.clear

/-- Removes every entry and gives the memory back. -/
def close : Store → Store
  | blocks x => blocks x.close
  | memory m => memory m.close

/-- The item limit. -/
def capacity : Store → Nat
  | blocks x => x.maxItems
  | memory m => m.maxItems

/-- Bytes available for items. -/
def memoryCapacity : Store → Nat
  | blocks x => x.memoryCapacity
  | memory m => m.memoryCapacity

/-- Bytes taken by items. -/
def memoryUsed : Store → Nat
  | blocks x => x.memoryUsed
  | memory m => m.bytes

/-- Entries removed to keep within the limits. -/
def evictions : Store → Nat
  | blocks x => x.evictions
  | memory m => m.evictions

end Store
end BlockCache

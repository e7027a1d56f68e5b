import BlockCache.Eviction.Policy
import BlockCache.Eviction.Queue
import BlockCache.Item.Codec
import Std.Data.HashMap.Lemmas

/-!
# The map store

Items in one map, as they are. An item weighs as much as its key and its stored form, so byte limits
act as they do on arenas, without rounding to blocks. After a write the oldest other entries are
evicted until both limits hold.
-/

namespace BlockCache

/-- An item and the stamp of its last use. -/
structure MemoryEntry where
  item : Item
  stamp : UInt64

/-- Items in one map. -/
structure MemoryStore where
  entries : Std.HashMap Key MemoryEntry
  queue : Queue
  /-- What all entries weigh. -/
  bytes : Nat
  evictions : Nat
  closed : Bool
  policy : Policy
  maxItems : Nat
  maxBytes : Nat
  stamps : Counter
  cas : Counter

/-- Bytes that an item counts for in a map store. -/
def Item.weight (i : Item) : Nat := i.key.length + i.encodedLength

namespace MemoryStore

/-- An empty store. -/
def new (maxItems maxBytes : Nat) (policy : Policy) : MemoryStore where
  entries := ∅
  queue := .empty
  bytes := 0
  evictions := 0
  closed := false
  policy
  maxItems
  maxBytes
  stamps := {}
  cas := {}

def size (m : MemoryStore) : Nat := m.entries.size

def lookup (m : MemoryStore) (key : Key) : Option Item := m.entries[key]?.map (·.item)

/-- Removes the entry of a key and answers the item it held. -/
def remove (m : MemoryStore) (key : Key) : Option Item × MemoryStore :=
  match m.entries[key]? with
  | none => (none, m)
  | some entry =>
    (some entry.item, { m with
      entries := m.entries.erase key
      queue := m.queue.erase entry.stamp
      bytes := m.bytes - entry.item.weight })

/-- Adds an entry for a key that has none. -/
def attach (m : MemoryStore) (item : Item) (stamp : UInt64) : MemoryStore :=
  { m with
    entries := m.entries.insert item.key ⟨item, stamp⟩
    queue := m.queue.push stamp item.key
    bytes := m.bytes + item.weight }

/-- Whether both limits hold. -/
def withinLimits (m : MemoryStore) : Bool := m.size ≤ m.maxItems && m.bytes ≤ m.maxBytes

/-- Evicts the entry of a key, the oldest stamp of which is `stamp`. -/
def evict (m : MemoryStore) (stamp : UInt64) (key : Key) : MemoryStore :=
  let m := ({ m with queue := m.queue.erase stamp }.remove key).2
  { m with evictions := m.evictions + 1 }

theorem queue_size_evict_lt {m : MemoryStore} {stamp : UInt64} {key : Key}
    (queued : m.queue.get? stamp = some key) : (m.evict stamp key).queue.size < m.queue.size := by
  have shrinks := Queue.size_erase_lt queued
  unfold evict remove
  dsimp only
  split
  · exact shrinks
  · exact Nat.lt_of_le_of_lt (Queue.size_erase_le _ _) shrinks

/-- Evicts the oldest entries other than `written` until both limits hold. -/
def enforceLimits (m : MemoryStore) (written : Key) : MemoryStore :=
  if m.withinLimits then m
  else
    match _ : m.queue.oldestExcept? written with
    | none => m
    | some (stamp, key) => (m.evict stamp key).enforceLimits written
termination_by m.queue.size
decreasing_by exact queue_size_evict_lt (Queue.get?_of_oldestExcept? (by assumption))

/-- Whether the store could hold the item alone. -/
def checkFits (m : MemoryStore) (item : Item) : Except StoreError Unit :=
  if m.closed then .error (.outOfSpace item.weight 0)
  else if m.maxBytes < item.weight then .error (.outOfSpace item.weight (m.maxBytes - m.bytes))
  else .ok ()

/-- Stores an item over whatever its key holds, and answers that. -/
def put (m : MemoryStore) (item : Item) : Except StoreError (Option Item) × MemoryStore :=
  match m.checkFits item with
  | .error e => (.error e, m)
  | .ok () =>
    let (value, cas) := m.cas.next
    let (stamp, stamps) := m.stamps.next
    let (old, m) := { m with cas, stamps }.remove item.key
    (.ok old, (m.attach { item with cas := value } stamp).enforceLimits item.key)

/-- Stores an item if its key holds none, and otherwise answers what the key holds. -/
def putIfAbsent (m : MemoryStore) (item : Item) : Except StoreError (Option Item) × MemoryStore :=
  match m.lookup item.key with
  | some present => (.ok (some present), m)
  | none => m.put item

/-- Stores an item if its key holds exactly `expected`; says whether it did. -/
def replace (m : MemoryStore) (expected item : Item) : Except StoreError Bool × MemoryStore :=
  if expected.key = item.key ∧ m.lookup item.key = some expected then
    match m.put item with
    | (.error e, m) => (.error e, m)
    | (.ok _, m) => (.ok true, m)
  else (.ok false, m)

/-- Removes the entry of `expected` if it holds exactly that; says whether it did. -/
def removeIf (m : MemoryStore) (expected : Item) : Bool × MemoryStore :=
  if m.lookup expected.key = some expected then (true, (m.remove expected.key).2) else (false, m)

/-- The item under a key; under the policy that counts reads its entry becomes the youngest. -/
def get (m : MemoryStore) (key : Key) : Option Item × MemoryStore :=
  match m.entries[key]? with
  | none => (none, m)
  | some entry =>
    if m.policy.refreshesOnRead then
      let (stamp, stamps) := m.stamps.next
      (some entry.item, { m with
        entries := m.entries.insert key { entry with stamp }
        queue := m.queue.touch entry.stamp stamp
        stamps })
    else (some entry.item, m)

def contains (m : MemoryStore) (key : Key) : Bool := m.entries.contains key

/-- Every key stored. -/
def keys (m : MemoryStore) : List Key := m.entries.keys

/-- Removes every entry. -/
def clear (m : MemoryStore) : MemoryStore := { m with entries := ∅, queue := .empty, bytes := 0 }

/-- Removes every entry and refuses all later writes. -/
def close (m : MemoryStore) : MemoryStore := { m.clear with closed := true }

def memoryCapacity (m : MemoryStore) : Nat := if m.closed then 0 else m.maxBytes

end MemoryStore
end BlockCache

import BlockCache.Eviction.Queue
import BlockCache.Item.Codec
import BlockCache.Partition.Chains

/-!
# Partitions

A partition stores items: their bytes in an arena, where each lies in bucket chains, and the order
of their last use in an eviction queue. A write draws a CAS value and a stamp, takes the place of
the key's old value, evicts the oldest entries until its bytes fit, and then evicts further until
the free bytes reach the ceiling. Whatever an operation answers, the partition after it is answered too.
-/

namespace BlockCache

/-- The counters that all partitions of one index draw from. -/
structure Clocks where
  /-- Stamps of last use. -/
  stamps : Counter := {}
  /-- CAS values. -/
  cas : Counter := {}
deriving DecidableEq, Repr

namespace Clocks

/-- The item under the next CAS value, the next stamp, and the clocks after both draws. -/
def commit (c : Clocks) (i : Item) : Item × UInt64 × Clocks :=
  let (cas, casClock) := c.cas.next
  let (stamp, stampClock) := c.stamps.next
  ({ i with cas }, stamp, ⟨stampClock, casClock⟩)

/-- The next stamp, and the clocks after drawing it. -/
def drawStamp (c : Clocks) : UInt64 × Clocks :=
  let (stamp, stamps) := c.stamps.next
  (stamp, { c with stamps })

/-- The next CAS value, and the clocks after drawing it. -/
def drawCas (c : Clocks) : UInt64 × Clocks :=
  let (value, cas) := c.cas.next
  (value, { c with cas })

end Clocks

/-- Items in one arena. -/
structure Partition where
  arena : Arena
  chains : Chains
  queue : Queue
  /-- Entries stored. -/
  count : Nat
  evictions : Nat
  /-- Free bytes that a write leaves behind, if evicting other entries can achieve it. -/
  ceiling : Nat

namespace Partition

/-- An empty partition. -/
def new (buckets arenaBytes blockSize ceiling : Nat) : Partition where
  arena := .new arenaBytes blockSize
  chains := .new buckets
  queue := .empty
  count := 0
  evictions := 0
  ceiling

/-- The item under a key. -/
def lookup (p : Partition) (key : Key) : Except StoreError (Option Item) :=
  match p.chains.find? key with
  | none => .ok none
  | some link =>
    match p.arena.get link.region with
    | .error e => .error e
    | .ok bytes => (Item.decode key bytes).map some

def contains (p : Partition) (key : Key) : Bool := (p.chains.find? key).isSome

/-- Whether the arena could hold `length` bytes if it were empty. -/
def checkFits (p : Partition) (length : Nat) : Except StoreError Unit :=
  if p.arena.size < length then .error (.outOfSpace length p.arena.freeBytes) else .ok ()

/-- Removes the entry of a key from chains, queue and arena; says whether there was one. -/
def unlink (p : Partition) (key : Key) : Except StoreError Bool × Partition :=
  match p.chains.find? key with
  | none => (.ok false, p)
  | some link =>
    let p := { p with
      chains := p.chains.erase key
      count := p.count - 1
      queue := p.queue.erase link.stamp }
    match p.arena.free link.region with
    | .error e => (.error e, p)
    | .ok arena => (.ok true, { p with arena })

/-- Removes the entry of a key and answers the item it held. -/
def remove (p : Partition) (key : Key) : Except StoreError (Option Item) × Partition :=
  match p.lookup key with
  | .error e => (.error e, p)
  | .ok none => (.ok none, p)
  | .ok (some old) =>
    match p.unlink key with
    | (.error e, p) => (.error e, p)
    | (.ok _, p) => (.ok (some old), p)

/-- The next victim, which is never `spared`. -/
def victim? (p : Partition) : (spared : Option Key) → Option (UInt64 × Key)
  | some key => p.queue.oldestExcept? key
  | none => p.queue.oldest?

/-- Evicts the oldest entry other than `spared`; answers its key, or `none` if there is no other. -/
def evictOne (p : Partition) (spared : Option Key) : Except StoreError (Option Key) × Partition :=
  match p.victim? spared with
  | none => (.ok none, p)
  | some (stamp, key) =>
    match p.unlink key with
    | (.error e, p) => (.error e, p)
    | (.ok false, p) =>
      (.error (.invalidRegion s!"eviction queue names unlinked key {key.text}"),
        { p with queue := p.queue.erase stamp })
    | (.ok true, p) => (.ok (some key), { p with evictions := p.evictions + 1 })

theorem links_unlink_lt {p p' : Partition} {key : Key} (unlinked : p.unlink key = (.ok true, p')) :
    p'.chains.links.length < p.chains.links.length := by
  unfold unlink at unlinked
  split at unlinked
  · simp at unlinked
  · rename_i link found
    dsimp only at unlinked
    split at unlinked
    · simp at unlinked
    · obtain ⟨-, rfl⟩ := by simpa using unlinked
      exact Chains.length_links_erase_lt found

/-- Every eviction takes a link, so that evicting comes to an end. -/
theorem links_evictOne_lt {p p' : Partition} {spared : Option Key} {key : Key}
    (evicted : p.evictOne spared = (.ok (some key), p')) : p'.chains.links.length < p.chains.links.length := by
  unfold evictOne at evicted
  split at evicted
  · simp at evicted
  · split at evicted
    · simp at evicted
    · simp at evicted
    · rename_i q unlinked
      have shorter := links_unlink_lt unlinked
      obtain ⟨-, rfl⟩ := by simpa using evicted
      exact shorter

/-- Reserves a run for `size` bytes, evicting the oldest entries while there is none. -/
def allocEvicting (p : Partition) (size : Nat) : Except StoreError Region × Partition :=
  match p.arena.alloc size with
  | .ok (region, arena) => (.ok region, { p with arena })
  | .error (.outOfSpace requested available) =>
    match _ : p.evictOne none with
    | (.error e, p) => (.error e, p)
    | (.ok none, p) => (.error (.outOfSpace requested available), p)
    | (.ok (some _), p') => p'.allocEvicting size
  | .error e => (.error e, p)
termination_by p.chains.links.length
decreasing_by exact links_evictOne_lt (by assumption)

/-- Stores the bytes of a key that has no entry. -/
def insert (p : Partition) (key : Key) (encoded : Bytes) (stamp : UInt64) :
    Except StoreError Unit × Partition :=
  match p.allocEvicting encoded.length with
  | (.error e, p) => (.error e, p)
  | (.ok region, p) =>
    match p.arena.write region encoded with
    | .error e => (.error e, p)
    | .ok arena =>
      (.ok (), { p with
        arena
        chains := p.chains.push ⟨key, region, stamp⟩
        count := p.count + 1
        queue := p.queue.push stamp key })

/-- Evicts the oldest entries other than `written` while fewer bytes are free than the ceiling. -/
def enforceCeiling (p : Partition) (written : Key) : Except StoreError Unit × Partition :=
  if p.arena.freeBytes < p.ceiling then
    match _ : p.evictOne (some written) with
    | (.error e, p) => (.error e, p)
    | (.ok none, p) => (.ok (), p)
    | (.ok (some _), p') => p'.enforceCeiling written
  else (.ok (), p)
termination_by p.chains.links.length
decreasing_by exact links_evictOne_lt (by assumption)

/-- Stores the bytes of a key that has no entry, and restores the ceiling. -/
def storeNew (p : Partition) (key : Key) (encoded : Bytes) (stamp : UInt64) :
    Except StoreError Unit × Partition :=
  match p.insert key encoded stamp with
  | (.error e, p) => (.error e, p)
  | (.ok (), p) => p.enforceCeiling key

/-- Stores an item over whatever its key holds, and answers that. -/
def put (p : Partition) (clocks : Clocks) (item : Item) :
    Except StoreError (Option Item) × Partition × Clocks :=
  match p.checkFits item.encodedLength with
  | .error e => (.error e, p, clocks)
  | .ok () =>
    let (item, stamp, clocks) := clocks.commit item
    match p.remove item.key with
    | (.error e, p) => (.error e, p, clocks)
    | (.ok old, p) =>
      match p.storeNew item.key item.encode stamp with
      | (.error e, p) => (.error e, p, clocks)
      | (.ok (), p) => (.ok old, p, clocks)

/-- The item under a key; `touch` makes its entry the youngest. -/
def get (p : Partition) (clocks : Clocks) (key : Key) (touch : Bool) :
    Except StoreError (Option Item) × Partition × Clocks :=
  match p.chains.find? key, p.lookup key with
  | some link, .ok (some item) =>
    if touch then
      let (stamp, clocks) := clocks.drawStamp
      (.ok (some item),
        { p with chains := p.chains.restamp key stamp, queue := p.queue.touch link.stamp stamp }, clocks)
    else (.ok (some item), p, clocks)
  | _, answer => (answer, p, clocks)

/-- Stores an item if its key holds none, and otherwise answers what the key holds. -/
def putIfAbsent (p : Partition) (clocks : Clocks) (item : Item) :
    Except StoreError (Option Item) × Partition × Clocks :=
  match p.lookup item.key with
  | .error e => (.error e, p, clocks)
  | .ok (some present) => (.ok (some present), p, clocks)
  | .ok none =>
    match p.put clocks item with
    | (.error e, p, clocks) => (.error e, p, clocks)
    | (.ok _, p, clocks) => (.ok none, p, clocks)

/-- Stores an item if its key holds exactly `expected`; says whether it did. -/
def replaceIf (p : Partition) (clocks : Clocks) (expected item : Item) :
    Except StoreError Bool × Partition × Clocks :=
  match p.lookup item.key with
  | .error e => (.error e, p, clocks)
  | .ok current =>
    if current = some expected then
      match p.put clocks item with
      | (.error e, p, clocks) => (.error e, p, clocks)
      | (.ok _, p, clocks) => (.ok true, p, clocks)
    else (.ok false, p, clocks)

/-- Removes the entry of `expected` if it holds exactly that; says whether it did. -/
def removeIf (p : Partition) (expected : Item) : Except StoreError Bool × Partition :=
  match p.lookup expected.key with
  | .error e => (.error e, p)
  | .ok current => if current = some expected then p.unlink expected.key else (.ok false, p)

/-- The stamp of the next victim. -/
def oldestStamp? (p : Partition) : Option UInt64 := p.queue.oldest?.map (·.1)

/-- Evicts the oldest entry and answers its key. -/
def evictOldest (p : Partition) : Except StoreError (Option Key) × Partition := p.evictOne none

/-- Every key stored. -/
def keys (p : Partition) : List Key := p.chains.links.map (·.key)

/-- Removes every entry. -/
def clear (p : Partition) : Partition :=
  { p with chains := p.chains.clear, arena := p.arena.clear, count := 0, queue := .empty }

/-- Removes every entry and releases the arena. -/
def close (p : Partition) : Partition := { p.clear with arena := p.clear.arena.close }

def size (p : Partition) : Nat := p.arena.size

def usedBytes (p : Partition) : Nat := p.arena.usedBytes

def freeBytes (p : Partition) : Nat := p.arena.freeBytes

end Partition
end BlockCache

import BlockCache.Config.Settings
import BlockCache.Partition.Basic

/-!
# The partitioned index

Items spread over partitions by the hash of their keys. The item limit holds over all partitions:
after a write that may have added an item, the entries with the smallest stamps of all are evicted
until it does. Byte limits concern one partition only.
-/

namespace BlockCache

/-- Items over one or more partitions. -/
structure Index where
  partitions : Array Partition
  policy : Policy
  maxItems : Nat
  clocks : Clocks
  nonempty : 0 < partitions.size

namespace Index

/-- An empty index. -/
def new (s : StorageSettings) : Index where
  partitions := Array.replicate (max s.partitions 1)
    (.new s.bucketsPerPartition s.partitionBytes s.blockSize s.ceilingBytes)
  policy := s.eviction
  maxItems := s.maxItems
  clocks := {}
  nonempty := by simp only [Array.size_replicate]; omega

/-- The partition of a key. -/
def route (x : Index) (key : Key) : Fin x.partitions.size :=
  ⟨key.hash.toNat % x.partitions.size, Nat.mod_lt _ x.nonempty⟩

/-- The partition that a key belongs to. -/
def home (x : Index) (key : Key) : Partition := x.partitions[x.route key]

/-- The index with another partition in place `i`. -/
def setPartition (x : Index) (i : Fin x.partitions.size) (p : Partition) : Index :=
  { x with partitions := x.partitions.set i p, nonempty := by simpa using x.nonempty }

/-- The sum of a figure over all partitions. -/
def total (x : Index) (figure : Partition → Nat) : Nat :=
  x.partitions.foldl (fun sum p => sum + figure p) 0

/-- Entries stored. -/
def size (x : Index) : Nat := x.total (·.count)

/-- The oldest entry so far, by stamp and partition, or that of partition `i` if it is older. -/
def older (x : Index) (best : Option (UInt64 × Fin x.partitions.size)) (i : Fin x.partitions.size) :
    Option (UInt64 × Fin x.partitions.size) :=
  match x.partitions[i].oldestStamp?, best with
  | none, _ => best
  | some stamp, none => some (stamp, i)
  | some stamp, some (least, j) => if stamp < least then some (stamp, i) else some (least, j)

/-- The partition that holds the oldest entry of all. -/
def oldestPartition? (x : Index) : Option (Fin x.partitions.size) :=
  ((List.finRange x.partitions.size).foldl x.older none).map (·.2)

/-- Evicts the oldest entry of all and answers its key. -/
def evictOldest (x : Index) : Except StoreError (Option Key) × Index :=
  match x.oldestPartition? with
  | none => (.ok none, x)
  | some i =>
    let (answer, p) := x.partitions[i].evictOldest
    (answer, x.setPartition i p)

theorem foldl_add_set (figure : Partition → Nat) (ps : List Partition) (i : Nat) (inside : i < ps.length)
    (p : Partition) (sum : Nat) :
    (ps.set i p).foldl (fun sum p => sum + figure p) sum + figure ps[i] =
      ps.foldl (fun sum p => sum + figure p) sum + figure p := by
  have shift (qs : List Partition) (a b : Nat) :
      qs.foldl (fun sum p => sum + figure p) (a + b) = qs.foldl (fun sum p => sum + figure p) a + b := by
    induction qs generalizing a with
    | nil => rfl
    | cons q qs ih => simp only [List.foldl_cons, Nat.add_right_comm a b, ih]
  induction ps generalizing i sum with
  | nil => simp at inside
  | cons q qs ih =>
    cases i with
    | zero => simp only [List.set_cons_zero, List.foldl_cons, List.getElem_cons_zero, shift]; omega
    | succ i => exact ih i (by simpa using inside) _

/-- Another partition in a place changes a sum by the difference of the two partitions' figures. -/
theorem total_setPartition (x : Index) (i : Fin x.partitions.size) (p : Partition) (figure : Partition → Nat) :
    (x.setPartition i p).total figure + figure x.partitions[i] = x.total figure + figure p := by
  have inside : i.val < x.partitions.toList.length := by simp
  rw [total, total, setPartition, ← Array.foldl_toList, ← Array.foldl_toList, Array.toList_set]
  simpa using foldl_add_set figure x.partitions.toList i.val inside p 0

/-- Links in the chains of all partitions. -/
def linkCount (x : Index) : Nat := x.total (·.chains.links.length)

theorem linkCount_evictOldest_lt {x x' : Index} {key : Key} (evicted : x.evictOldest = (.ok (some key), x')) :
    x'.linkCount < x.linkCount := by
  unfold evictOldest at evicted
  split at evicted
  · simp at evicted
  · rename_i i _
    cases taken : x.partitions[i].evictOldest with
    | mk answer p =>
      simp only [taken, Prod.mk.injEq] at evicted
      obtain ⟨rfl, rfl⟩ := evicted
      have shorter := Partition.links_evictOne_lt taken
      have sum := x.total_setPartition i p (·.chains.links.length)
      unfold linkCount
      omega

/-- Evicts the oldest entries until the item limit holds. -/
def enforceItemLimit (x : Index) : Except StoreError Unit × Index :=
  if x.maxItems < x.size then
    match _ : x.evictOldest with
    | (.error e, x) => (.error e, x)
    | (.ok none, x) => (.ok (), x)
    | (.ok (some _), x') => x'.enforceItemLimit
  else (.ok (), x)
termination_by x.linkCount
decreasing_by exact linkCount_evictOldest_lt (by assumption)

/-- Stores an item and answers what its key held. -/
def put (x : Index) (item : Item) : Except StoreError (Option Item) × Index :=
  let i := x.route item.key
  let (answer, p, clocks) := x.partitions[i].put x.clocks item
  let x := { x.setPartition i p with clocks }
  match answer with
  | .error e => (.error e, x)
  | .ok old =>
    match x.enforceItemLimit with
    | (.error e, x) => (.error e, x)
    | (.ok (), x) => (.ok old, x)

/-- Stores an item if its key holds none, and otherwise answers what the key holds. -/
def putIfAbsent (x : Index) (item : Item) : Except StoreError (Option Item) × Index :=
  let i := x.route item.key
  let (answer, p, clocks) := x.partitions[i].putIfAbsent x.clocks item
  let x := { x.setPartition i p with clocks }
  match answer with
  | .error e => (.error e, x)
  | .ok (some present) => (.ok (some present), x)
  | .ok none =>
    match x.enforceItemLimit with
    | (.error e, x) => (.error e, x)
    | (.ok (), x) => (.ok none, x)

/-- Stores an item if its key holds exactly `expected`; says whether it did. -/
def replace (x : Index) (expected item : Item) : Except StoreError Bool × Index :=
  if expected.key = item.key then
    let i := x.route item.key
    let (answer, p, clocks) := x.partitions[i].replaceIf x.clocks expected item
    (answer, { x.setPartition i p with clocks })
  else (.ok false, x)

/-- The item under a key. -/
def get (x : Index) (key : Key) : Except StoreError (Option Item) × Index :=
  let i := x.route key
  let (answer, p, clocks) := x.partitions[i].get x.clocks key x.policy.refreshesOnRead
  (answer, { x.setPartition i p with clocks })

/-- Removes the entry of a key and answers the item it held. -/
def remove (x : Index) (key : Key) : Except StoreError (Option Item) × Index :=
  let i := x.route key
  let (answer, p) := x.partitions[i].remove key
  (answer, x.setPartition i p)

/-- Removes the entry of `expected` if it holds exactly that; says whether it did. -/
def removeIf (x : Index) (expected : Item) : Except StoreError Bool × Index :=
  let i := x.route expected.key
  let (answer, p) := x.partitions[i].removeIf expected
  (answer, x.setPartition i p)

def contains (x : Index) (key : Key) : Bool := (x.home key).contains key

/-- Every key stored. -/
def keys (x : Index) : List Key := x.partitions.toList.flatMap (·.keys)

/-- Removes every entry. -/
def clear (x : Index) : Index :=
  { x with partitions := x.partitions.map (·.clear), nonempty := by simpa using x.nonempty }

/-- Removes every entry and releases the arenas. -/
def close (x : Index) : Index :=
  { x with partitions := x.partitions.map (·.close), nonempty := by simpa using x.nonempty }

/-- Bytes in all arenas. -/
def memoryCapacity (x : Index) : Nat := x.total (·.size)

/-- Bytes in use in all arenas. -/
def memoryUsed (x : Index) : Nat := x.total (·.usedBytes)

def evictions (x : Index) : Nat := x.total (·.evictions)

end Index
end BlockCache

import BlockCache.Key
import Std.Data.TreeMap.Lemmas

/-!
# The eviction queue

Every entry of a store carries a stamp from a counter that only grows. The queue holds the keys by
stamp; the entry with the smallest stamp is the next victim. The view of a queue is `toList`, its
stamps and keys from oldest to youngest.
-/

namespace BlockCache

/-- A counter that issues 1, 2, 3 and so on as 64-bit words, for stamps or for CAS values. -/
structure Counter where
  /-- How many numbers were drawn. -/
  issued : Nat := 0
deriving DecidableEq, Repr

/-- The next number, which is the count of the numbers drawn cut to 64 bits, and the counter after it. -/
def Counter.next (c : Counter) : UInt64 × Counter := ((c.issued + 1).toUInt64, ⟨c.issued + 1⟩)

/-- Keys by stamp. -/
structure Queue where
  byStamp : Std.TreeMap UInt64 Key

namespace Queue

def empty : Queue := ⟨∅⟩

/-- The stamps and their keys, oldest first. -/
def toList (q : Queue) : List (UInt64 × Key) := q.byStamp.toList

def isEmpty (q : Queue) : Bool := q.byStamp.isEmpty

/-- The key that carries a stamp. -/
def get? (q : Queue) (stamp : UInt64) : Option Key := q.byStamp[stamp]?

/-- Gives `key` the stamp, taking it from any other key. -/
def push (q : Queue) (stamp : UInt64) (key : Key) : Queue := ⟨q.byStamp.insert stamp key⟩

def erase (q : Queue) (stamp : UInt64) : Queue := ⟨q.byStamp.erase stamp⟩

/-- Gives the key stamped `old` the stamp `new`. -/
def touch (q : Queue) (old new : UInt64) : Queue :=
  match q.get? old with
  | some key => (q.erase old).push new key
  | none => q

/-- The oldest entry whose key satisfies `wanted`. -/
def oldestWhere? (q : Queue) (wanted : Key → Bool) : Option (UInt64 × Key) :=
  Id.run (forIn q.byStamp none fun entry _ =>
    if wanted entry.2 then pure (.done (some entry)) else pure (.yield none))

def oldest? (q : Queue) : Option (UInt64 × Key) := q.oldestWhere? fun _ => true

/-- The oldest entry of any other key. -/
def oldestExcept? (q : Queue) (key : Key) : Option (UInt64 × Key) := q.oldestWhere? (· ≠ key)

theorem oldestWhere?_eq_find? (q : Queue) (wanted : Key → Bool) :
    q.oldestWhere? wanted = q.toList.find? fun entry => wanted entry.2 := by
  unfold oldestWhere? toList
  rw [Std.TreeMap.forIn_eq_forIn_toList]
  induction q.byStamp.toList with
  | nil => rfl
  | cons entry rest ih =>
    by_cases h : wanted entry.2
    · simp [h, Id.run]; rfl
    · simpa [h, List.find?_cons] using ih

@[simp] theorem get?_empty (stamp : UInt64) : empty.get? stamp = none := by simp [empty, get?]

@[simp] theorem get?_push (q : Queue) (stamp other : UInt64) (key : Key) :
    (q.push stamp key).get? other = if stamp = other then some key else q.get? other := by
  simp [push, get?, Std.TreeMap.getElem?_insert, Std.LawfulEqCmp.compare_eq_iff_eq]

@[simp] theorem get?_erase (q : Queue) (stamp other : UInt64) :
    (q.erase stamp).get? other = if stamp = other then none else q.get? other := by
  simp [erase, get?, Std.TreeMap.getElem?_erase, Std.LawfulEqCmp.compare_eq_iff_eq]

theorem mem_toList {q : Queue} {stamp : UInt64} {key : Key} :
    (stamp, key) ∈ q.toList ↔ q.get? stamp = some key := by
  simp [toList, get?, Std.TreeMap.mem_toList_iff_getElem?_eq_some]

theorem get?_of_oldestWhere? {q : Queue} {wanted : Key → Bool} {stamp : UInt64} {key : Key}
    (found : q.oldestWhere? wanted = some (stamp, key)) : q.get? stamp = some key := by
  rw [oldestWhere?_eq_find?] at found
  exact mem_toList.1 (List.mem_of_find?_eq_some found)

theorem get?_of_oldest? {q : Queue} {stamp : UInt64} {key : Key}
    (found : q.oldest? = some (stamp, key)) : q.get? stamp = some key := get?_of_oldestWhere? found

theorem get?_of_oldestExcept? {q : Queue} {spared : Key} {stamp : UInt64} {key : Key}
    (found : q.oldestExcept? spared = some (stamp, key)) : q.get? stamp = some key :=
  get?_of_oldestWhere? found

theorem oldestWhere?_eq_none_iff {q : Queue} {wanted : Key → Bool} :
    q.oldestWhere? wanted = none ↔ ∀ stamp key, q.get? stamp = some key → wanted key = false := by
  rw [oldestWhere?_eq_find?, List.find?_eq_none]
  constructor
  · intro absent stamp key held
    simpa using absent (stamp, key) (mem_toList.2 held)
  · intro absent entry mem
    simpa using absent entry.1 entry.2 (mem_toList.1 mem)

theorem wanted_of_oldestWhere? {q : Queue} {wanted : Key → Bool} {stamp : UInt64} {key : Key}
    (found : q.oldestWhere? wanted = some (stamp, key)) : wanted key = true := by
  rw [oldestWhere?_eq_find?] at found
  simpa using List.find?_some found

/-- No wanted entry is older than the one found. -/
theorem oldestWhere?_le {q : Queue} {wanted : Key → Bool} {stamp other : UInt64} {key otherKey : Key}
    (found : q.oldestWhere? wanted = some (stamp, key)) (held : q.get? other = some otherKey)
    (also : wanted otherKey = true) : stamp ≤ other := by
  rw [oldestWhere?_eq_find?] at found
  obtain ⟨-, before, after, split, others⟩ := List.find?_eq_some_iff_append.1 found
  have mem := mem_toList.2 held
  have ordered : q.toList.Pairwise fun a b => compare a.1 b.1 = .lt := Std.TreeMap.ordered_keys_toList
  rw [split] at mem ordered
  rcases List.mem_append.1 mem with early | late
  · have := others _ early
    simp [also] at this
  · rcases List.mem_cons.1 late with same | later
    · rw [(Prod.mk.inj same).1]
      exact UInt64.le_refl stamp
    · have := List.rel_of_pairwise_cons (List.pairwise_append.1 ordered).2.1 later
      exact UInt64.le_of_lt (Std.compare_eq_lt.1 this)

/-- Entries in the queue. -/
def size (q : Queue) : Nat := q.byStamp.size

theorem size_erase_le (q : Queue) (stamp : UInt64) : (q.erase stamp).size ≤ q.size :=
  Std.TreeMap.size_erase_le

theorem size_erase_lt {q : Queue} {stamp : UInt64} {key : Key} (found : q.get? stamp = some key) :
    (q.erase stamp).size < q.size := by
  have present : stamp ∈ q.byStamp := by
    have : q.byStamp[stamp]? = some key := found
    exact Std.TreeMap.mem_iff_isSome_getElem?.2 (by simp [this])
  have positive : 0 < q.byStamp.size := by
    rcases Nat.eq_zero_or_pos q.byStamp.size with zero | positive
    · have : q.byStamp.isEmpty := by simp [Std.TreeMap.isEmpty_eq_size_eq_zero, zero]
      exact absurd present (Std.TreeMap.not_mem_of_isEmpty this)
    · exact positive
  have contained : q.byStamp.contains stamp = true := present
  simp only [erase, size, Std.TreeMap.size_erase, contained, if_true]
  omega

end Queue
end BlockCache

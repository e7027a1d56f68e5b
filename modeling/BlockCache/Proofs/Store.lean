import BlockCache.Proofs.Index.Runs
import BlockCache.Proofs.MemoryStore
import BlockCache.Store

/-!
# What a store holds

The two kinds of stores behind one map. An attempt to store an item is refused, and then changes nothing, or
stores it, and then the item lies under its key and other keys hold what they held or were evicted. This
is all that the cache needs to know of a store. Stamps only matter to a store in arenas, and so does the
length of an item, which a region of an arena says in 32 bits.
-/

namespace BlockCache.Store

/-- The item that a store holds under a key. -/
def view : Store → Key → Option Item
  | blocks x => x.view
  | memory m => m.lookup

/-- What a store holds, and what it has counted, agree. -/
def Sound : Store → Prop
  | blocks x => x.Sound
  | memory m => m.Sound

/-- An item that fits the arena of its key is shorter than 4 GiB, so that a region can say how long it is. -/
def Describes : Store → Item → Prop
  | blocks x, item => item.encodedLength ≤ (x.home item.key).size → item.encodedLength < UInt32.size
  | memory _, _ => True

/-- Arenas are so small that no item of 4 GiB fits. -/
def Small (s : Store) : Prop := ∀ item, s.Describes item

/-- Why a store refuses an item, if it does. -/
def refusal? (s : Store) (item : Item) : Option StoreError :=
  match s with
  | blocks x => (x.home item.key).refusal? item
  | memory m => m.refusal? item

theorem outOfSpace_of_refusal? {s : Store} {item : Item} {e : StoreError} (refused : s.refusal? item = some e) :
    ∃ requested available, e = .outOfSpace requested available := by
  cases s with
  | blocks x =>
    simp only [refusal?, Partition.refusal?] at refused
    split at refused
    · exact ⟨_, _, (Option.some.inj refused).symm⟩
    · cases refused
  | memory m =>
    simp only [refusal?, MemoryStore.refusal?] at refused
    split at refused
    · exact ⟨_, _, (Option.some.inj refused).symm⟩
    · split at refused
      · exact ⟨_, _, (Option.some.inj refused).symm⟩
      · cases refused

/-- How many stamps a store in arenas has drawn. -/
def drawn : Store → Nat
  | blocks x => x.clocks.stamps.issued
  | memory _ => 0

/-- How many CAS values a store has drawn. -/
def issued : Store → Nat
  | blocks x => x.clocks.cas.issued
  | memory m => m.cas.issued

/-- An item as the store's next write stores it. -/
def committed (s : Store) (item : Item) : Item := { item with cas := (s.issued + 1).toUInt64 }

theorem describes_of_short (s : Store) {item : Item} (short : item.encodedLength < UInt32.size) : s.Describes item := by
  cases s with
  | blocks x => exact fun _ => short
  | memory m => trivial

/-- `t` describes every item that `s` does, for no arena grows. -/
def Shrinks (s t : Store) : Prop := ∀ item, s.Describes item → t.Describes item

theorem shrinks_of_shape {x y : Index} (shape : x.SameShape y) : (blocks x).Shrinks (blocks y) := by
  intro item short
  rw [Describes, shape.room]
  exact short

/-- `t` has drawn and evicted no more than `s`, and has the same limits. -/
structure Stays (s t : Store) : Prop where
  issued : t.issued = s.issued
  evictions : t.evictions = s.evictions
  capacity : t.capacity = s.capacity
  shrinks : s.Shrinks t

theorem Stays.refl (s : Store) : s.Stays s := ⟨rfl, rfl, rfl, fun _ short => short⟩

theorem Stays.trans {s t u : Store} (left : s.Stays t) (right : t.Stays u) : s.Stays u where
  issued := right.issued.trans left.issued
  evictions := right.evictions.trans left.evictions
  capacity := right.capacity.trans left.capacity
  shrinks item short := right.shrinks item (left.shrinks item short)

/-- `t` is `s` with an item stored under its key, and some others evicted. Only where no item at all may be kept is
the item evicted at once. -/
structure Stores (s : Store) (item : Item) (t : Store) : Prop where
  here : t.view item.key = some (s.committed item) ∨ s.capacity = 0 ∧ t.view item.key = none
  elsewhere : ∀ key, key ≠ item.key → t.view key = s.view key ∨ t.view key = none ∧ s.evictions < t.evictions
  issued : t.issued = s.issued + 1
  evictions : s.evictions ≤ t.evictions
  capacity : t.capacity = s.capacity
  shrinks : s.Shrinks t

/-- How an attempt to store an item comes out. -/
inductive Attempt (s : Store) (item : Item) (answer : α) : Except StoreError α × Store → Prop where
  | refused {e : StoreError} : s.refusal? item = some e → Attempt s item answer (.error e, s)
  | stored {t : Store} : s.refusal? item = none → t.Sound → s.Stores item t → Attempt s item answer (.ok answer, t)

theorem Attempt.map {s : Store} {item : Item} {a : α} {r : Except StoreError α × Store} (attempt : s.Attempt item a r)
    (f : α → β) : s.Attempt item (f a) (r.1.map f, r.2) := by
  cases attempt with
  | refused refused => exact .refused refused
  | stored accepted sound stores => exact .stored accepted sound stores

/-- `t` has drawn the stamps that `s` has, and at most `n` more. -/
def Draws (s : Store) (n : Nat) (t : Store) : Prop := s.drawn ≤ t.drawn ∧ t.drawn ≤ s.drawn + n

section Draws

variable {s t u : Store} {m n : Nat}

theorem Draws.refl (s : Store) (n : Nat) : s.Draws n s := ⟨Nat.le_refl _, Nat.le_add_right _ _⟩

theorem Draws.trans (left : s.Draws m t) (right : t.Draws n u) : s.Draws (m + n) u := by
  unfold Draws at *
  omega

theorem Draws.mono (draws : s.Draws m t) (le : m ≤ n) : s.Draws n t := by
  unfold Draws at *
  omega

theorem draws_of_perform (x : Index) (op : Index.Operation) : (blocks x).Draws 1 (blocks (x.perform op).2) := by
  have issued := x.perform_issued op
  constructor
  · exact x.issued_le_perform op
  · change (x.perform op).2.clocks.stamps.issued ≤ x.clocks.stamps.issued + 1
    omega

variable (s)

theorem draws_get (key : Key) : s.Draws 1 (s.get key).2 := by
  cases s with
  | blocks x => exact draws_of_perform x (.get key)
  | memory m => exact ⟨Nat.le_refl 0, Nat.zero_le 1⟩

theorem draws_putIfAbsent (item : Item) : s.Draws 1 (s.putIfAbsent item).2 := by
  cases s with
  | blocks x => exact draws_of_perform x (.putIfAbsent item)
  | memory m => exact ⟨Nat.le_refl 0, Nat.zero_le 1⟩

theorem draws_put (item : Item) : s.Draws 1 (s.put item).2 := by
  cases s with
  | blocks x => exact draws_of_perform x (.put item)
  | memory m => exact ⟨Nat.le_refl 0, Nat.zero_le 1⟩

theorem draws_replace (expected item : Item) : s.Draws 1 (s.replace expected item).2 := by
  cases s with
  | blocks x => exact draws_of_perform x (.replace expected item)
  | memory m => exact ⟨Nat.le_refl 0, Nat.zero_le 1⟩

theorem draws_removeIf (expected : Item) : s.Draws 1 (s.removeIf expected).2 := by
  cases s with
  | blocks x => exact draws_of_perform x (.removeIf expected)
  | memory m => exact ⟨Nat.le_refl 0, Nat.zero_le 1⟩

theorem draws_clear : s.Draws 1 s.clear := by
  cases s with
  | blocks x => exact draws_of_perform x .clear
  | memory m => exact ⟨Nat.le_refl 0, Nat.zero_le 1⟩

theorem draws_close : s.Draws 1 s.close := by
  cases s with
  | blocks x => exact draws_of_perform x .close
  | memory m => exact ⟨Nat.le_refl 0, Nat.zero_le 1⟩

end Draws

namespace Sound

variable {s : Store}

theorem key_of_view (sound : s.Sound) {key : Key} {item : Item} (shown : s.view key = some item) : item.key = key := by
  cases s with
  | blocks x => exact Index.Sound.key_of_view sound shown
  | memory m => exact MemoryStore.Sound.keyed sound shown

/-- An item as long as the one stored under its key is not refused. -/
theorem refusal?_of_view (sound : s.Sound) {item other : Item} (shown : s.view item.key = some item)
    (key : other.key = item.key) (length : other.data.length = item.data.length) : s.refusal? other = none := by
  have encoded : other.encodedLength = item.encodedLength := by rw [Item.encodedLength, length, Item.encodedLength]
  cases s with
  | blocks x =>
    have fits := (Index.Sound.home sound item.key).encodedLength_le shown
    rw [refusal?, key, Partition.refusal?, encoded, if_neg (Nat.not_lt.2 fits)]
  | memory m =>
    apply MemoryStore.Sound.refusal?_of_lookup sound shown
    rw [Item.weight, key, encoded, Item.weight]

/-- A read answers what the key holds. -/
theorem get (sound : s.Sound) (key : Key) (few : (s.get key).2.drawn < UInt64.size) :
    ∃ t, s.get key = (.ok (s.view key), t) ∧ t.Sound ∧ (∀ other, t.view other = s.view other) ∧
      (∀ item, t.refusal? item = s.refusal? item) ∧ s.Stays t := by
  cases s with
  | blocks x =>
    obtain ⟨y, answer, after, reads⟩ := Index.Sound.get sound key few
    refine ⟨blocks y, ?_, after, reads.view, fun item => ?_,
      ⟨congrArg Counter.issued reads.cas, reads.evictions, reads.shape.maxItems, shrinks_of_shape reads.shape⟩⟩
    · simp only [Store.get, answer]
      rfl
    · exact Partition.refusal?_congr (reads.arena item.key) item
  | memory m =>
    obtain ⟨n, answer, after, view, refusal, keeps, cas⟩ := MemoryStore.Sound.get sound key
    refine ⟨memory n, ?_, after, view, refusal,
      ⟨congrArg Counter.issued cas, keeps.evictions, keeps.maxItems, fun _ _ => trivial⟩⟩
    simp only [Store.get, answer]
    rfl

/-- A write, and evictions for the item limit after it. -/
theorem attempt_of_commits {x y z : Index} {item : Item} {first second : List Key} {answer : α}
    (fits : item.encodedLength ≤ (x.home item.key).size) (commits : x.Commits item first y second z) :
    (blocks x).Attempt item answer (.ok answer, blocks z) := by
  have writes := commits.writes
  obtain ⟨after, evicts⟩ := commits.sound.evicting commits.evicting
  have shape := writes.shape.trans evicts.shape
  have counted : z.evictions = x.evictions + first.length + second.length := by
    rw [evicts.evictions, writes.evictions]
  refine .stored ?_ after ⟨?_, fun key other => ?_, ?_, ?_, shape.maxItems, shrinks_of_shape shape⟩
  · rw [refusal?, Partition.refusal?, if_neg (Nat.not_lt.2 fits)]
  · by_cases evicted : item.key ∈ second
    · have limit : x.maxItems = 0 := Nat.eq_zero_of_not_pos fun positive => commits.spared positive evicted
      exact .inr ⟨limit, (evicts.view item.key).trans (if_pos evicted)⟩
    · exact .inl ((evicts.view item.key).trans ((if_neg evicted).trans ((writes.view item.key).trans (if_pos rfl))))
  · change z.view key = x.view key ∨ z.view key = none ∧ x.evictions < z.evictions
    have shown : y.view key = if key ∈ first then none else x.view key := (writes.view key).trans (if_neg other)
    rw [evicts.view, shown, counted]
    by_cases late : key ∈ second
    · have := List.length_pos_of_mem late
      exact .inr ⟨if_pos late, by omega⟩
    · by_cases early : key ∈ first
      · have := List.length_pos_of_mem early
        exact .inr ⟨by rw [if_neg late, if_pos early], by omega⟩
      · exact .inl (by rw [if_neg late, if_neg early])
  · change z.clocks.cas.issued = x.clocks.cas.issued + 1
    rw [commits.clocks]
    rfl
  · change x.evictions ≤ z.evictions
    omega

theorem attempt_of_large {x : Index} {item : Item} {answer : α} (large : (x.home item.key).size < item.encodedLength) :
    (blocks x).Attempt item answer
      (.error (.outOfSpace item.encodedLength (x.home item.key).freeBytes), blocks x) := by
  refine .refused ?_
  rw [refusal?, Partition.refusal?, if_pos large]

theorem put (sound : s.Sound) (item : Item) (short : s.Describes item) (few : (s.put item).2.drawn < UInt64.size) :
    s.Attempt item (s.view item.key) (s.put item) := by
  cases s with
  | blocks x =>
    rcases Nat.lt_or_ge (x.home item.key).size item.encodedLength with large | fits
    · simp only [Store.put, Index.put_of_large large]
      exact attempt_of_large large
    · obtain ⟨first, y, second, z, commits, answer⟩ := Index.Sound.put sound fits (short fits) few
      simp only [Store.put, answer]
      exact attempt_of_commits fits commits
  | memory m =>
    cases refused : m.refusal? item with
    | some e =>
      simp only [Store.put, MemoryStore.put_of_refusal refused]
      exact .refused refused
    | none =>
      obtain ⟨n, answer, after, puts⟩ := MemoryStore.Sound.put sound refused
      simp only [Store.put, answer]
      exact .stored refused after
        ⟨.inl puts.here, puts.elsewhere, congrArg Counter.issued puts.cas, puts.evictions, puts.maxItems,
          fun _ _ => trivial⟩

theorem putIfAbsent_of_present (sound : s.Sound) {item present : Item} (shown : s.view item.key = some present) :
    s.putIfAbsent item = (.ok (some present), s) := by
  cases s with
  | blocks x => simp only [Store.putIfAbsent, Index.Sound.putIfAbsent_of_present sound shown]
  | memory m =>
    have found : m.lookup item.key = some present := shown
    simp only [Store.putIfAbsent, MemoryStore.putIfAbsent, found]

theorem putIfAbsent_of_absent (sound : s.Sound) {item : Item} (absent : s.view item.key = none)
    (short : s.Describes item) (few : (s.putIfAbsent item).2.drawn < UInt64.size) :
    s.Attempt item none (s.putIfAbsent item) := by
  cases s with
  | blocks x =>
    have same : (blocks x).putIfAbsent item = (((blocks x).put item).1.map fun _ => none, ((blocks x).put item).2) := by
      simp only [Store.putIfAbsent, Store.put, Index.Sound.putIfAbsent_of_absent sound absent]
    rw [same] at few ⊢
    exact (Sound.put sound item short few).map fun _ => none
  | memory m =>
    have none_found : m.lookup item.key = none := absent
    have same : (memory m).putIfAbsent item = (memory m).put item := by
      simp only [Store.putIfAbsent, Store.put, MemoryStore.putIfAbsent, none_found]
    rw [same] at few ⊢
    exact absent ▸ Sound.put sound item short few

/-- A swap of what the key holds is an attempt to store the other item. -/
theorem replace (sound : s.Sound) {present item : Item} (shown : s.view item.key = some present)
    (short : s.Describes item) (few : (s.replace present item).2.drawn < UInt64.size) :
    s.Attempt item true (s.replace present item) := by
  cases s with
  | blocks x =>
    rcases Nat.lt_or_ge (x.home item.key).size item.encodedLength with large | fits
    · simp only [Store.replace, Index.Sound.replace_of_large sound shown large]
      exact attempt_of_large large
    · obtain ⟨gone, y, commits, answer⟩ := Index.Sound.replace_commits sound shown fits (short fits) few
      simp only [Store.replace, answer]
      exact attempt_of_commits fits commits
  | memory m =>
    have matching : present.key = item.key ∧ m.lookup item.key = some present :=
      ⟨MemoryStore.Sound.keyed sound shown, shown⟩
    have same :
        (memory m).replace present item = (((memory m).put item).1.map fun _ => true, ((memory m).put item).2) := by
      simp only [Store.replace, Store.put, MemoryStore.replace_of_same matching]
    rw [same] at few ⊢
    exact (Sound.put sound item short few).map fun _ => true

/-- Removing what the key holds takes it out and nothing else. -/
theorem removeIf (sound : s.Sound) {present : Item} (shown : s.view present.key = some present) :
    ∃ t, s.removeIf present = (.ok true, t) ∧ t.Sound ∧
      (∀ key, t.view key = if key = present.key then none else s.view key) ∧ s.Stays t := by
  cases s with
  | blocks x =>
    obtain ⟨y, answer, after, removes⟩ := Index.Sound.removeIf_of_same sound shown
    refine ⟨blocks y, by simp only [Store.removeIf, answer], after, removes.view, ?_⟩
    exact ⟨congrArg (·.cas.issued) removes.clocks, removes.evictions, removes.shape.maxItems,
      shrinks_of_shape removes.shape⟩
  | memory m =>
    have found : m.lookup present.key = some present := shown
    have keeps := m.keeps_remove present.key
    refine ⟨memory (m.remove present.key).2, ?_, (m.sheds_remove present.key).sound sound, m.lookup_remove present.key,
      ⟨congrArg Counter.issued (m.clocks_remove present.key).2, keeps.evictions, keeps.maxItems, fun _ _ => trivial⟩⟩
    simp only [Store.removeIf, MemoryStore.removeIf, if_pos found]

theorem clear (sound : s.Sound) : s.clear.Sound ∧ (∀ key, s.clear.view key = none) ∧ s.Stays s.clear := by
  cases s with
  | blocks x =>
    obtain ⟨after, empties, shape⟩ := Index.Sound.clear sound
    exact ⟨after, empties.view, ⟨rfl, empties.evictions, rfl, shrinks_of_shape shape⟩⟩
  | memory m =>
    have empty (key : Key) : m.clear.lookup key = none := by simp [MemoryStore.lookup, MemoryStore.clear]
    have sheds : m.Sheds m.clear := ⟨fun key => .inr (empty key), rfl, rfl⟩
    exact ⟨sheds.sound sound, empty, ⟨rfl, rfl, rfl, fun _ _ => trivial⟩⟩

theorem close (s : Store) : s.close.Sound ∧ (∀ key, s.close.view key = none) ∧ s.Stays s.close := by
  cases s with
  | blocks x =>
    obtain ⟨after, empties, released⟩ := Index.Sound.close x
    have shrinks : (blocks x).Shrinks (blocks x.close) := fun item _ fits => by
      rw [released] at fits
      exact Nat.lt_of_le_of_lt fits (by decide)
    exact ⟨after, empties.view, ⟨rfl, empties.evictions, rfl, shrinks⟩⟩
  | memory m =>
    have empty (key : Key) : m.close.lookup key = none := by
      simp [MemoryStore.lookup, MemoryStore.close, MemoryStore.clear]
    have sound : m.close.Sound := by
      constructor <;> intro key item held <;> rw [empty] at held <;> cases held
    exact ⟨sound, empty, ⟨rfl, rfl, rfl, fun _ _ => trivial⟩⟩

theorem new (settings : StorageSettings) : (Store.new settings).Sound := by
  unfold Store.new
  split
  · exact Index.Sound.new settings
  · exact MemoryStore.Sound.new _ _ _

end Sound

theorem small_new {settings : StorageSettings} (small : settings.backend = .block → settings.partitionBytes < 2 ^ 32) :
    (Store.new settings).Small := by
  intro item
  unfold Store.new
  split
  · rename_i block
    exact fun fits => Nat.lt_of_le_of_lt fits (Index.small_new (small block) item.key)
  · trivial

theorem view_new (settings : StorageSettings) (key : Key) : (Store.new settings).view key = none := by
  unfold Store.new
  split
  · exact Index.view_new settings key
  · simp [view, MemoryStore.lookup, MemoryStore.new]

theorem issued_new (settings : StorageSettings) : (Store.new settings).issued = 0 := by
  unfold Store.new
  split <;> rfl

end BlockCache.Store

import BlockCache.Proofs.Backends.Calls
import BlockCache.Proofs.Backends.Recency
import BlockCache.Proofs.Eviction.Order
import Mathlib.Algebra.GroupWithZero.Nat
import Mathlib.Data.List.Nodup
import Mathlib.Data.List.Pairwise

/-!
# The limits of the map store

A map store keeps its byte total beside its entries, and one loop restores both limits after a write. The total
is always what the entries weigh, so no removal takes more bytes away than there are. The loop evicts the oldest
of the other entries, and none that could have stayed; since an item that is stored fits alone, the limits hold
before the loop runs out of victims.
-/

open scoped List

namespace BlockCache.MemoryStore

/-- The entries, in no particular order. -/
def held (m : MemoryStore) : List MemoryEntry := m.entries.toList.map (·.2)

/-- What some entries weigh. -/
def weightOf (entries : List MemoryEntry) : Nat := (entries.map (·.item.weight)).sum

/-- The entry that the next write makes of an item. -/
def entryOf (m : MemoryStore) (item : Item) : MemoryEntry := ⟨{ item with cas := m.cas.next.1 }, m.stamps.next.1⟩

/-- Both limits allow some entries. -/
def Allows (m : MemoryStore) (entries : List MemoryEntry) : Prop :=
  entries.length ≤ m.maxItems ∧ weightOf entries ≤ m.maxBytes

/-- Queue, keys and byte total agree with the entries. -/
structure Balanced (m : MemoryStore) : Prop where
  queued : m.Queued
  keyed : ∀ {key : Key} {entry : MemoryEntry}, m.entries[key]? = some entry → entry.item.key = key
  bytes : m.bytes = weightOf m.held

@[simp] theorem weightOf_cons (entry : MemoryEntry) (entries : List MemoryEntry) :
    weightOf (entry :: entries) = entry.item.weight + weightOf entries := by
  simp [weightOf]

theorem weightOf_perm {some others : List MemoryEntry} (perm : some ~ others) : weightOf some = weightOf others :=
  (perm.map _).sum_eq

theorem allows_perm {m : MemoryStore} {some others : List MemoryEntry} (perm : some ~ others) :
    m.Allows some ↔ m.Allows others := by
  rw [Allows, weightOf_perm perm, perm.length_eq, Allows]

theorem Evicts.allows_iff {m n : MemoryStore} (evicts : m.Evicts n) {entries : List MemoryEntry} :
    n.Allows entries ↔ m.Allows entries := by
  rw [Allows, evicts.maxItems, evicts.maxBytes, Allows]

section Entries

variable {m n : MemoryStore} {key : Key} {entry : MemoryEntry}

theorem length_held (m : MemoryStore) : m.held.length = m.size := by
  rw [held, List.length_map, Std.HashMap.length_toList, size]

theorem mem_held : entry ∈ m.held ↔ ∃ key : Key, m.entries[key]? = some entry := by
  simp [held, Std.HashMap.mem_toList_iff_getElem?_eq_some]

theorem nodup_toList (m : MemoryStore) : m.entries.toList.Nodup := by
  refine m.entries.distinct_keys_toList.imp fun differs same => ?_
  simp [same] at differs

/-- Taking one entry out takes it out of the list of all. -/
theorem held_perm (there : m.entries[key]? = some entry)
    (entries : ∀ other, n.entries[other]? = if other = key then none else m.entries[other]?) :
    m.held ~ entry :: n.held := by
  have split : m.entries.toList ~ (key, entry) :: n.entries.toList := by
    refine (List.perm_ext_iff_of_nodup m.nodup_toList (List.nodup_cons.2 ⟨?_, n.nodup_toList⟩)).2 fun pair => ?_
    · rw [Std.HashMap.mem_toList_iff_getElem?_eq_some, entries, if_pos rfl]
      exact nofun
    · obtain ⟨other, second⟩ := pair
      rw [List.mem_cons, Std.HashMap.mem_toList_iff_getElem?_eq_some, Std.HashMap.mem_toList_iff_getElem?_eq_some,
        entries, Prod.mk.injEq]
      by_cases here : other = key
      · subst here
        simp [there, eq_comm]
      · simp [here]
  exact split.map _

theorem Queued.distinct (queued : m.Queued) : (m.held.map (·.stamp)).Nodup := by
  rw [held, List.map_map]
  refine List.pairwise_map.2 (m.entries.distinct_keys_toList.imp_of_mem fun {a b} first second differs same => ?_)
  have one := Std.HashMap.mem_toList_iff_getElem?_eq_some.1 first
  have two := Std.HashMap.mem_toList_iff_getElem?_eq_some.1 second
  simp [queued.key_eq two one same] at differs

/-- Entries with distinct stamps can be put in the order of their stamps. -/
theorem exists_ordered {entries : List MemoryEntry} (distinct : (entries.map (·.stamp)).Nodup) :
    ∃ ordered, ordered ~ entries ∧ ordered.Pairwise (·.stamp < ·.stamp) :=
  ⟨_, List.mergeSort_perm .., pairwise_mergeSort_of_nodup MemoryEntry.stamp distinct⟩

end Entries

namespace Balanced

variable {m n : MemoryStore} (balanced : m.Balanced)

theorem of_empty (entries : m.entries = ∅) (queue : m.queue = .empty) (bytes : m.bytes = 0) : m.Balanced := by
  refine ⟨.of_empty entries queue, fun {key entry} there => ?_, ?_⟩
  · simp [entries] at there
  · simp [bytes, held, entries, weightOf]

include balanced

/-- No entry weighs more than the byte total. -/
theorem weight_le {key : Key} {entry : MemoryEntry} (there : m.entries[key]? = some entry) :
    entry.item.weight ≤ m.bytes := by
  have split := held_perm there (m.entries_remove key)
  rw [balanced.bytes, weightOf_perm split, weightOf_cons]
  exact Nat.le_add_right _ _

/-- A store without one entry is balanced if its queue is right and it has that many bytes less. -/
theorem without {key : Key} {entry : MemoryEntry} (there : m.entries[key]? = some entry) (queued : n.Queued)
    (entries : ∀ other, n.entries[other]? = if other = key then none else m.entries[other]?)
    (bytes : n.bytes = m.bytes - entry.item.weight) : n.Balanced := by
  refine ⟨queued, fun {other second} held => ?_, ?_⟩
  · rw [entries] at held
    split at held
    · cases held
    · exact balanced.keyed held
  · have split := weightOf_perm (held_perm there entries)
    rw [weightOf_cons, ← balanced.bytes] at split
    omega

theorem remove (key : Key) : (m.remove key).2.Balanced := by
  cases there : m.entries[key]? with
  | none =>
    rw [MemoryStore.remove, there]
    exact balanced
  | some entry =>
    refine balanced.without there (balanced.queued.remove key) (m.entries_remove key) ?_
    rw [MemoryStore.remove, there]

theorem evict {stamp : UInt64} {key : Key} (chosen : m.queue.get? stamp = some key) : (m.evict stamp key).Balanced := by
  obtain ⟨queued, entries⟩ := balanced.queued.evict chosen
  obtain ⟨entry, there, -⟩ := (balanced.queued.lists stamp key).1 chosen
  refine balanced.without there queued entries ?_
  rw [MemoryStore.evict, MemoryStore.remove, there]

/-- A store with one entry more is balanced if its queue is right and it has that many bytes more. -/
theorem push (key : Key) (entry : MemoryEntry) (absent : m.entries[key]? = none) (queued : n.Queued)
    (entries : ∀ other, n.entries[other]? = if other = key then some entry else m.entries[other]?)
    (keyed : entry.item.key = key) (bytes : n.bytes = m.bytes + entry.item.weight) :
    n.Balanced ∧ n.held ~ entry :: m.held := by
  have split : n.held ~ entry :: m.held := by
    refine held_perm ((entries key).trans (if_pos rfl)) fun other => ?_
    rw [entries]
    split
    · rename_i here
      rw [here, absent]
    · rfl
  refine ⟨⟨queued, fun {other second} held => ?_, ?_⟩, split⟩
  · rw [entries] at held
    split at held
    · rename_i here
      rw [← Option.some.inj held, keyed, here]
    · exact balanced.keyed held
  · rw [bytes, balanced.bytes, weightOf_perm split, weightOf_cons, Nat.add_comm]

section Draws

variable (few : m.stamps.issued + 1 < UInt64.size)

include few

/-- The item is one entry beside those of other keys. -/
theorem withItem (item : Item) : (m.withItem item).Balanced ∧
    (m.withItem item).held ~ m.entryOf item :: (m.remove item.key).2.held := by
  refine (balanced.remove item.key).push item.key (m.entryOf item) ?_ (balanced.queued.withItem few item)
    (fun other => ?_) rfl ?_
  · rw [entries_remove, if_pos rfl]
  · rw [entries_withItem, entries_remove]
    split <;> rfl
  · rw [MemoryStore.withItem, MemoryStore.remove, MemoryStore.remove]
    cases m.entries[item.key]? <;> rfl

theorem restamped {key : Key} {entry : MemoryEntry} (there : m.entries[key]? = some entry) :
    (m.restamped key entry).Balanced := by
  have keyed : entry.item.key = key := balanced.keyed there
  -- The entry is taken out and put back under another stamp, which weighs the same.
  refine ((balanced.remove key).push key { entry with stamp := m.stamps.next.1 } ?_
    (balanced.queued.restamped few there) (fun other => ?_) keyed ?_).1
  · rw [entries_remove, if_pos rfl]
  · rw [entries_restamped, entries_remove]
    split <;> rfl
  · have within := balanced.weight_le there
    rw [MemoryStore.remove, there]
    exact (Nat.sub_add_cancel within).symm

end Draws

theorem withinLimits_iff : m.withinLimits = true ↔ m.Allows m.held := by
  rw [withinLimits, Allows, length_held, ← balanced.bytes, Bool.and_eq_true, decide_eq_true_eq, decide_eq_true_eq]

end Balanced

/-- `n` is `m` after the oldest entries beside that of a written key were evicted: `gone` are those evicted, and
`left` are those that stay. -/
structure Trims (m : MemoryStore) (written : MemoryEntry) (gone left : List MemoryEntry) (n : MemoryStore) : Prop where
  others : m.held ~ written :: (gone ++ left)
  ordered : (gone ++ left).Pairwise (·.stamp < ·.stamp)
  held : n.held ~ written :: left
  allowed : m.Allows (written :: left)
  /-- One eviction less would not have done. -/
  fewest : ∀ k < gone.length, ¬m.Allows (written :: (gone ++ left).drop k)
  evictions : n.evictions = m.evictions + gone.length
  balanced : n.Balanced

section Limits

variable {m : MemoryStore} {key : Key} {written : MemoryEntry}

theorem Balanced.trims_of_allowed (balanced : m.Balanced) (there : m.entries[key]? = some written)
    (allowed : m.Allows m.held) : ∃ left, m.Trims written [] left m := by
  have split := held_perm there (m.entries_remove key)
  have distinct := (split.map (·.stamp)).nodup_iff.1 balanced.queued.distinct
  obtain ⟨left, perm, ordered⟩ := exists_ordered (List.nodup_cons.1 distinct).2
  have others := split.trans (perm.symm.cons written)
  exact ⟨left, others, ordered, others, ⟨others.length_eq ▸ allowed.1, weightOf_perm others ▸ allowed.2⟩,
    fun k lt => absurd lt (Nat.not_lt_zero k), rfl, balanced⟩

/-- The entry alone is always allowed, so while the limits are exceeded there are others. -/
theorem Balanced.exists_victim (balanced : m.Balanced) (there : m.entries[key]? = some written)
    (alone : m.Allows [written]) (beyond : ¬m.Allows m.held) :
    ∃ victim, m.queue.oldestExcept? key = some victim := by
  cases chosen : m.queue.oldestExcept? key with
  | some victim => exact ⟨victim, rfl⟩
  | none =>
    have split := held_perm there (m.entries_remove key)
    have none_left : (m.remove key).2.held = [] := by
      refine List.eq_nil_iff_forall_not_mem.2 fun entry mem => ?_
      obtain ⟨other, held⟩ := mem_held.1 mem
      rw [entries_remove] at held
      split at held
      · cases held
      · rename_i differs
        have listed := (balanced.queued.lists _ _).2 ⟨entry, held, rfl⟩
        simpa [differs] using Queue.oldestWhere?_eq_none_iff.1 chosen _ _ listed
    rw [none_left] at split
    exact absurd ⟨split.length_eq ▸ alone.1, weightOf_perm split ▸ alone.2⟩ beyond

/-- The oldest of the other entries goes before those that go after it. -/
theorem Balanced.trims_cons (balanced : m.Balanced) (there : m.entries[key]? = some written)
    (beyond : ¬m.Allows m.held) {victim : Key} {entry : MemoryEntry}
    (chosen : m.queue.oldestExcept? key = some (entry.stamp, victim)) (taken : m.entries[victim]? = some entry)
    {gone left : List MemoryEntry} {n : MemoryStore} (trims : (m.evict entry.stamp victim).Trims written gone left n) :
    m.Trims written (entry :: gone) left n := by
  have queued := Queue.get?_of_oldestExcept? chosen
  have evicts := m.evicts_evict entry.stamp victim
  obtain ⟨after, entries⟩ := balanced.queued.evict queued
  have split := held_perm taken entries
  have others : m.held ~ written :: (entry :: gone ++ left) :=
    (split.trans (trims.others.cons entry)).trans (List.Perm.swap ..)
  refine ⟨others, List.pairwise_cons.2 ⟨fun other mem => ?_, trims.ordered⟩, trims.held,
    evicts.allows_iff.1 trims.allowed, fun k lt => ?_, ?_, trims.balanced⟩
  · -- The queue names every entry that is left, and it named the victim first.
    obtain ⟨otherKey, held⟩ := mem_held.1 (trims.others.mem_iff.2 (List.mem_cons_of_mem _ mem))
    rw [entries] at held
    split at held
    · cases held
    rename_i differs
    have unwritten : otherKey ≠ key := by
      rintro rfl
      have distinct := trims.others.nodup_iff.1 (.of_map _ after.distinct)
      exact (List.nodup_cons.1 distinct).1 (Option.some.inj (held.symm.trans there) ▸ mem)
    have listed := (balanced.queued.lists _ _).2 ⟨other, held, rfl⟩
    have le := Queue.oldestWhere?_le chosen listed (decide_eq_true unwritten)
    exact UInt64.lt_of_le_of_ne le fun same => differs (balanced.queued.key_eq taken held same.symm)
  · cases k with
    | zero => exact fun allowed => beyond ((allows_perm others).2 allowed)
    | succ k => exact fun allowed => trims.fewest k (Nat.lt_of_succ_lt_succ lt) (evicts.allows_iff.2 allowed)
  · rw [trims.evictions, evictions_evict, List.length_cons]
    omega

/-- The loop that restores both limits evicts the fewest of the oldest entries. -/
theorem Balanced.enforceLimits {m : MemoryStore} (balanced : m.Balanced) (there : m.entries[key]? = some written)
    (alone : m.Allows [written]) : ∃ gone left, m.Trims written gone left (m.enforceLimits key) := by
  rw [MemoryStore.enforceLimits]
  split
  · rename_i within
    exact ⟨[], balanced.trims_of_allowed there (balanced.withinLimits_iff.1 within)⟩
  · rename_i beyond
    rw [balanced.withinLimits_iff] at beyond
    obtain ⟨⟨stamp, victim⟩, chosen⟩ := balanced.exists_victim there alone beyond
    split
    · rename_i absent
      cases chosen.symm.trans absent
    · rename_i other found
      obtain ⟨rfl, rfl⟩ := Prod.mk.inj (Option.some.inj (chosen.symm.trans found))
      have queued := Queue.get?_of_oldestExcept? chosen
      have spared : victim ≠ key := by simpa using Queue.wanted_of_oldestWhere? chosen
      obtain ⟨-, entries⟩ := balanced.queued.evict queued
      have still : (m.evict stamp victim).entries[key]? = some written := by rw [entries, if_neg spared.symm, there]
      -- The written entry stays and is still allowed alone, so the rest of the loop does the same.
      obtain ⟨gone, left, trims⟩ :=
        (balanced.evict queued).enforceLimits still ((m.evicts_evict stamp victim).allows_iff.2 alone)
      obtain ⟨entry, taken, rfl⟩ := (balanced.queued.lists stamp victim).1 queued
      exact ⟨entry :: gone, left, balanced.trims_cons there beyond chosen taken trims⟩
termination_by m.queue.size
decreasing_by exact queue_size_evict_lt (Queue.get?_of_oldestExcept? (by assumption))

end Limits

/-- What a write of an item that leads to `n` displaces: of the entries of other keys, `gone` are evicted and `left`
stay as they were. -/
structure Displaces (m : MemoryStore) (item : Item) (gone left : List MemoryEntry) (n : MemoryStore) : Prop where
  others : m.held.filter (·.item.key ≠ item.key) ~ gone ++ left
  ordered : (gone ++ left).Pairwise (·.stamp < ·.stamp)
  held : n.held ~ m.entryOf item :: left
  allowed : m.Allows (m.entryOf item :: left)
  /-- Had the youngest of those evicted stayed, with any before it, the limits would not hold. -/
  fewest : ∀ k < gone.length, ¬m.Allows (m.entryOf item :: (gone ++ left).drop k)
  evictions : n.evictions = m.evictions + gone.length
  stamps : n.stamps = m.stamps.next.2
  cas : n.cas = m.cas.next.2

/-- What every run leads to: the figures agree with the entries, and both limits hold. -/
structure Settled (m : MemoryStore) : Prop where
  balanced : m.Balanced
  size : m.size ≤ m.maxItems
  bytes : m.bytes ≤ m.maxBytes

theorem settled_iff {m : MemoryStore} (balanced : m.Balanced) : m.Settled ↔ m.Allows m.held := by
  rw [Allows, length_held, ← balanced.bytes]
  exact ⟨fun settled => ⟨settled.size, settled.bytes⟩, fun allowed => ⟨balanced, allowed.1, allowed.2⟩⟩

/-- Performs an operation. -/
def perform (m : MemoryStore) : Index.Operation → Except StoreError Answer × MemoryStore
  | .put item => ((m.put item).1.map .item, (m.put item).2)
  | .putIfAbsent item => ((m.putIfAbsent item).1.map .item, (m.putIfAbsent item).2)
  | .replace expected item => ((m.replace expected item).1.map .acted, (m.replace expected item).2)
  | .get key => (.ok (.item (m.get key).1), (m.get key).2)
  | .remove key => (.ok (.item (m.remove key).1), (m.remove key).2)
  | .removeIf expected => (.ok (.acted (m.removeIf expected).1), (m.removeIf expected).2)
  | .clear => (.ok .done, m.clear)
  | .close => (.ok .done, m.close)

/-- Performs operations one after the other. -/
def run (m : MemoryStore) : List Index.Operation → MemoryStore
  | [] => m
  | op :: ops => (m.perform op).2.run ops

section Performing

variable {m : MemoryStore} {op : Index.Operation} {item : Item}

theorem perform_memory (m : MemoryStore) (op : Index.Operation) :
    (Store.memory m).perform op = ((m.perform op).1, .memory (m.perform op).2) := by
  cases op <;> rfl

theorem perform_of_idle (idle : op.writing? m.lookup = none) :
    m.perform op = (.ok (op.answer m.lookup), Store.unwritten m op) := by
  have performed := Store.perform_of_idle idle
  rw [perform_memory, Prod.mk.injEq, Store.memory.injEq] at performed
  exact Prod.ext performed.1 performed.2

theorem perform_of_refusal (writing : op.writing? m.lookup = some item) {e : StoreError}
    (refused : m.refusal? item = some e) : m.perform op = (.error e, m) := by
  obtain ⟨f, -, performed⟩ := Store.perform_of_writing writing
  rw [put_of_refusal refused, perform_memory, Prod.mk.injEq, Store.memory.injEq] at performed
  exact Prod.ext performed.1 performed.2

theorem perform_of_accepted (writing : op.writing? m.lookup = some item) (accepted : m.refusal? item = none) :
    m.perform op = (.ok (op.answer m.lookup), (m.withItem item).enforceLimits item.key) := by
  obtain ⟨f, answer, performed⟩ := Store.perform_of_writing writing
  rw [put_of_accepted accepted, perform_memory, Prod.mk.injEq, Store.memory.injEq] at performed
  exact Prod.ext (performed.1.trans (congrArg Except.ok answer)) performed.2

/-- An operation draws one stamp or none. -/
theorem stamps_perform (m : MemoryStore) (op : Index.Operation) :
    (m.perform op).2.stamps = m.stamps ∨ (m.perform op).2.stamps = m.stamps.next.2 := by
  cases writing : op.writing? m.lookup with
  | some item =>
    cases refused : m.refusal? item with
    | some e =>
      rw [perform_of_refusal writing refused]
      exact .inl rfl
    | none =>
      rw [perform_of_accepted writing refused]
      exact .inr (((m.withItem item).evicts_enforceLimits item.key).1.stamps.trans (m.clocks_withItem item).1)
  | none =>
    rw [perform_of_idle writing]
    cases op with
    | get key =>
      rw [Store.unwritten, MemoryStore.get]
      split
      · exact .inl rfl
      · split
        · exact .inr rfl
        · exact .inl rfl
    | remove key => exact .inl (m.clocks_remove key).1
    | removeIf expected =>
      rw [Store.unwritten]
      split
      · exact .inl (m.clocks_remove expected.key).1
      · exact .inl rfl
    | put _ | putIfAbsent _ | replace _ _ | clear | close => exact .inl rfl

theorem issued_le_perform (m : MemoryStore) (op : Index.Operation) :
    m.stamps.issued ≤ (m.perform op).2.stamps.issued := by
  rcases m.stamps_perform op with same | next
  · rw [same]
  · rw [next]
    exact Nat.le_succ _

theorem issued_le_run (m : MemoryStore) (ops : List Index.Operation) : m.stamps.issued ≤ (m.run ops).stamps.issued := by
  induction ops generalizing m with
  | nil => exact Nat.le_refl _
  | cons op ops ih => exact Nat.le_trans (m.issued_le_perform op) (ih _)

theorem run_issued_le (m : MemoryStore) (ops : List Index.Operation) :
    (m.run ops).stamps.issued ≤ m.stamps.issued + ops.length := by
  induction ops generalizing m with
  | nil => exact Nat.le_refl _
  | cons op ops ih =>
    have step : (m.perform op).2.stamps.issued ≤ m.stamps.issued + 1 := by
      rcases m.stamps_perform op with same | next
      · exact same ▸ Nat.le_succ _
      · exact next ▸ Nat.le_refl _
    have rest := ih (m.perform op).2
    rw [run, List.length_cons]
    omega

theorem run_concat (m : MemoryStore) (ops : List Index.Operation) (op : Index.Operation) :
    m.run (ops ++ [op]) = ((m.run ops).perform op).2 := by
  induction ops generalizing m with
  | nil => rfl
  | cons first ops ih => exact ih _

end Performing

namespace Settled

variable {m : MemoryStore} {op : Index.Operation} {item : Item} (settled : m.Settled)

include settled

theorem remove (key : Key) : (m.remove key).2.Settled := by
  have after := settled.balanced.remove key
  have keeps := m.keeps_remove key
  have fewer : (m.remove key).2.size ≤ m.size := by
    unfold MemoryStore.remove
    split
    · exact Nat.le_refl _
    · exact Std.HashMap.size_erase_le
  refine ⟨after, ?_, ?_⟩
  · rw [keeps.maxItems]
    exact Nat.le_trans fewer settled.size
  · rw [keeps.maxBytes]
    exact Nat.le_trans (m.bytes_remove_le key) settled.bytes

theorem get (key : Key) (few : (m.get key).2.stamps.issued < UInt64.size) : (m.get key).2.Settled := by
  by_cases idle : m.policy.refreshesOnRead = false ∨ m.lookup key = none
  · rw [get_idle idle]
    exact settled
  · obtain ⟨refreshes, shown⟩ := not_or.1 idle
    obtain ⟨item, found⟩ := Option.ne_none_iff_exists'.1 shown
    obtain ⟨entry, there, -⟩ := Option.map_eq_some_iff.1 found
    have present : key ∈ m.entries := Std.HashMap.mem_iff_isSome_getElem?.2 (by rw [there]; rfl)
    have same : (m.restamped key entry).size = m.size := by
      rw [MemoryStore.size, MemoryStore.restamped, Std.HashMap.size_insert, if_pos present, MemoryStore.size]
    rw [get_restamps (by simpa using refreshes) there] at few ⊢
    exact ⟨settled.balanced.restamped few there, same ▸ settled.size, settled.bytes⟩

theorem unwritten (op : Index.Operation) (few : (Store.unwritten m op).stamps.issued < UInt64.size) :
    (Store.unwritten m op).Settled := by
  cases op with
  | get key => exact settled.get key few
  | remove key => exact settled.remove key
  | removeIf expected =>
    rw [Store.unwritten]
    split
    · exact settled.remove expected.key
    · exact settled
  | clear | close => exact ⟨.of_empty rfl rfl rfl, Nat.zero_le _, Nat.zero_le _⟩
  | put _ | putIfAbsent _ | replace _ _ => exact settled

omit settled in
/-- The entries of other keys are those that stay when the key's entry is removed. -/
theorem others_perm (balanced : m.Balanced) (key : Key) :
    m.held.filter (·.item.key ≠ key) ~ (m.remove key).2.held := by
  have others : (m.remove key).2.held.filter (·.item.key ≠ key) = (m.remove key).2.held := by
    refine List.filter_eq_self.2 fun entry mem => decide_eq_true fun here => ?_
    obtain ⟨other, there⟩ := mem_held.1 mem
    have keyed := (balanced.remove key).keyed there
    rw [← keyed, here, entries_remove, if_pos rfl] at there
    cases there
  cases there : m.entries[key]? with
  | none =>
    rw [MemoryStore.remove, there] at others ⊢
    exact .of_eq others
  | some entry =>
    have keyed : entry.item.key = key := balanced.keyed there
    have split := (held_perm there (m.entries_remove key)).filter (·.item.key ≠ key)
    rwa [List.filter_cons_of_neg (by simp [keyed]), others] at split

/-- A write that is not refused restores both limits, and displaces no entry that could have stayed. -/
theorem displaces (positive : 1 ≤ m.maxItems) (accepted : m.refusal? item = none)
    (few : ((m.withItem item).enforceLimits item.key).stamps.issued < UInt64.size) :
    ((m.withItem item).enforceLimits item.key).Settled ∧
      ∃ gone left, m.Displaces item gone left ((m.withItem item).enforceLimits item.key) := by
  obtain ⟨-, light⟩ := refusal?_eq_none_iff.1 accepted
  have evicts := ((m.withItem item).evicts_enforceLimits item.key).1
  have keeps := m.keeps_withItem item
  have clocks := m.clocks_withItem item
  rw [evicts.stamps, clocks.1] at few
  obtain ⟨balanced, held⟩ := settled.balanced.withItem few item
  have limits {entries : List MemoryEntry} : (m.withItem item).Allows entries ↔ m.Allows entries := by
    rw [Allows, keeps.maxItems, keeps.maxBytes, Allows]
  have there : (m.withItem item).entries[item.key]? = some (m.entryOf item) := by
    rw [entries_withItem, if_pos rfl]
    rfl
  have alone : (m.withItem item).Allows [m.entryOf item] := limits.2 ⟨positive, light⟩
  obtain ⟨gone, left, trims⟩ := balanced.enforceLimits there alone
  refine ⟨(settled_iff trims.balanced).2 ?_, gone, left, ?_, trims.ordered, trims.held, limits.1 trims.allowed,
    fun k lt => mt limits.2 (trims.fewest k lt), ?_, ?_, ?_⟩
  · rw [allows_perm trims.held, evicts.allows_iff]
    exact trims.allowed
  · exact (others_perm settled.balanced item.key).trans (List.Perm.cons_inv (held.symm.trans trims.others))
  · rw [trims.evictions, keeps.evictions]
  · exact evicts.stamps.trans clocks.1
  · exact evicts.cas.trans clocks.2

/-- Every operation restores both limits. -/
theorem perform (positive : 1 ≤ m.maxItems) (few : (m.perform op).2.stamps.issued < UInt64.size) :
    (m.perform op).2.Settled := by
  cases writing : op.writing? m.lookup with
  | none =>
    rw [perform_of_idle writing] at few ⊢
    exact settled.unwritten op few
  | some item =>
    cases refused : m.refusal? item with
    | some e =>
      rw [perform_of_refusal writing refused]
      exact settled
    | none =>
      rw [perform_of_accepted writing refused] at few ⊢
      exact (settled.displaces positive refused few).1

end Settled

section Run

variable {m : MemoryStore}

/-- An operation leaves the limits as they are, and only one closes the store. -/
theorem limits_perform (m : MemoryStore) (op : Index.Operation) : (m.perform op).2.maxItems = m.maxItems ∧
    (m.perform op).2.maxBytes = m.maxBytes ∧ ((m.perform op).2.closed = true ↔ m.closed = true ∨ op = .close) := by
  cases writing : op.writing? m.lookup with
  | some item =>
    have open_op : op ≠ .close := by
      rintro rfl
      cases writing
    cases refused : m.refusal? item with
    | some e =>
      rw [perform_of_refusal writing refused]
      simp [open_op]
    | none =>
      have evicts := ((m.withItem item).evicts_enforceLimits item.key).1
      have keeps := m.keeps_withItem item
      rw [perform_of_accepted writing refused]
      simp [open_op, evicts.maxItems, evicts.maxBytes, evicts.closed, keeps.maxItems, keeps.maxBytes, keeps.closed]
  | none =>
    rw [perform_of_idle writing]
    cases op with
    | get key =>
      rw [Store.unwritten, MemoryStore.get]
      split
      · simp
      · split <;> simp
    | remove key =>
      have keeps := m.keeps_remove key
      simp [Store.unwritten, keeps.maxItems, keeps.maxBytes, keeps.closed]
    | removeIf expected =>
      have keeps := m.keeps_remove expected.key
      rw [Store.unwritten]
      split
      · simp [keeps.maxItems, keeps.maxBytes, keeps.closed]
      · simp
    | clear => simp [Store.unwritten, MemoryStore.clear]
    | close => simp [Store.unwritten, MemoryStore.close, MemoryStore.clear]
    | put _ | putIfAbsent _ | replace _ _ => simp [Store.unwritten]

theorem limits_run (m : MemoryStore) (ops : List Index.Operation) : (m.run ops).maxItems = m.maxItems ∧
    (m.run ops).maxBytes = m.maxBytes ∧ ((m.run ops).closed = true ↔ m.closed = true ∨ .close ∈ ops) := by
  induction ops generalizing m with
  | nil => simp [run]
  | cons op ops ih =>
    obtain ⟨items, bytes, closed⟩ := m.limits_perform op
    obtain ⟨lastItems, lastBytes, lastClosed⟩ := ih (m.perform op).2
    refine ⟨lastItems.trans items, lastBytes.trans bytes, lastClosed.trans ?_⟩
    rw [closed, List.mem_cons, or_assoc, eq_comm (a := op)]

theorem Settled.run (settled : m.Settled) (positive : 1 ≤ m.maxItems) {ops : List Index.Operation}
    (few : (m.run ops).stamps.issued < UInt64.size) : (m.run ops).Settled := by
  induction ops generalizing m with
  | nil => exact settled
  | cons op ops ih =>
    have fewer := Nat.lt_of_le_of_lt ((m.perform op).2.issued_le_run ops) few
    exact ih (settled.perform positive fewer) ((m.limits_perform op).1 ▸ positive) few

theorem settled_new (maxItems maxBytes : Nat) (policy : Policy) : (new maxItems maxBytes policy).Settled :=
  ⟨.of_empty rfl rfl rfl, Nat.zero_le _, Nat.zero_le _⟩

/-- In every run on a new map store, the queue, the keys and the byte total agree with the entries, and both limits
hold. A write is refused for space, and then changes nothing, if the store is closed or the item exceeds the byte limit
alone; every other write evicts the oldest entries of other keys, as few of them as restore both limits. Nothing
else fails. The item limit is at least one, and fewer than 2^64 stamps are drawn. -/
theorem limits_hold_run {maxItems maxBytes : Nat} {policy : Policy} (positive : 1 ≤ maxItems)
    {ops : List Index.Operation} {op : Index.Operation}
    (few : ((new maxItems maxBytes policy).run (ops ++ [op])).stamps.issued < 2 ^ 64) :
    let m := (new maxItems maxBytes policy).run ops
    (m.Settled ∧ m.maxItems = maxItems ∧ m.maxBytes = maxBytes) ∧
      (∀ item, op.writing? m.lookup = some item →
        if .close ∈ ops ∨ maxBytes < item.weight then
          m.perform op =
            (.error (.outOfSpace item.weight (if .close ∈ ops then 0 else maxBytes - m.bytes)), m)
        else (m.perform op).1 = .ok (op.answer m.lookup) ∧
          ∃ gone left, m.Displaces item gone left (m.perform op).2) ∧
      (op.writing? m.lookup = none → (m.perform op).1 = .ok (op.answer m.lookup)) := by
  intro m
  rw [run_concat] at few
  have before : m.stamps.issued < UInt64.size := Nat.lt_of_le_of_lt (m.issued_le_perform op) few
  obtain ⟨maxItemsSame, maxBytesSame, closedIff⟩ := (new maxItems maxBytes policy).limits_run ops
  have settled : m.Settled := (settled_new maxItems maxBytes policy).run positive before
  have shut : m.closed = true ↔ .close ∈ ops := closedIff.trans (or_iff_right nofun)
  refine ⟨⟨settled, maxItemsSame, maxBytesSame⟩, fun item writing => ?_, fun idle => by rw [perform_of_idle idle]⟩
  have refusal : m.refusal? item = if .close ∈ ops ∨ maxBytes < item.weight then
      some (.outOfSpace item.weight (if .close ∈ ops then 0 else maxBytes - m.bytes)) else none := by
    rw [refusal?, show m.maxBytes = maxBytes from maxBytesSame]
    by_cases closed : .close ∈ ops
    · simp [shut.2 closed, closed]
    · simp [mt shut.1 closed, closed]
  split at refusal
  · rename_i refused
    rw [if_pos refused]
    exact perform_of_refusal writing refusal
  · rename_i accepted
    rw [if_neg accepted]
    have performed := perform_of_accepted writing refusal
    rw [performed] at few ⊢
    exact ⟨rfl, (settled.displaces (maxItemsSame.symm ▸ positive) refusal few).2⟩

/-- An item that is put into a full store displaces some of the others. -/
theorem limits_hold_run_full :
    let a : Item := { key := ⟨[97]⟩ }
    let b : Item := { key := ⟨[98]⟩ }
    let heavy : Item := { key := ⟨[99]⟩, data := [1, 2, 3, 4, 5, 6, 7, 8] }
    let m := (new 4 80 .lru).run [.put a, .put b, .get a.key]
    ∃ gone left, m.Displaces heavy gone left (m.perform (.put heavy)).2 := by
  intro a b heavy m
  have few : ((new 4 80 .lru).run ([.put a, .put b, .get a.key] ++ [.put heavy])).stamps.issued < 2 ^ 64 :=
    Nat.lt_of_le_of_lt (run_issued_le _ _) (by decide)
  have outcome := (limits_hold_run (by decide) few).2.1 heavy rfl
  rw [if_neg (by decide)] at outcome
  exact outcome.2

end Run

end BlockCache.MemoryStore

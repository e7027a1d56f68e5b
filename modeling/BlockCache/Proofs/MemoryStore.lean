import BlockCache.MemoryStore

/-!
# What the map store holds

`lookup` is the store as a map. The store is sound if every item lies under its own key and could be
stored alone. Evictions for the limits take items out and never the one just written.
-/

namespace BlockCache.MemoryStore

/-- Every item lies under its key and fits an empty store that is open. -/
structure Sound (m : MemoryStore) : Prop where
  keyed : ∀ {key : Key} {item : Item}, m.lookup key = some item → item.key = key
  fits : ∀ {key : Key} {item : Item}, m.lookup key = some item → m.closed = false ∧ item.weight ≤ m.maxBytes

/-- `n` is `m` without some of its items; what decides whether an item fits is as before. -/
structure Sheds (m n : MemoryStore) : Prop where
  lookup : ∀ key, n.lookup key = m.lookup key ∨ n.lookup key = none
  closed : n.closed = m.closed
  maxBytes : n.maxBytes = m.maxBytes

theorem Sheds.sound {m n : MemoryStore} (sheds : m.Sheds n) (sound : m.Sound) : n.Sound := by
  have old {key : Key} {item : Item} (held : n.lookup key = some item) : m.lookup key = some item := by
    rcases sheds.lookup key with same | gone
    · rwa [← same]
    · rw [gone] at held
      cases held
  constructor
  · intro key item held
    exact sound.keyed (old held)
  · intro key item held
    rw [sheds.closed, sheds.maxBytes]
    exact sound.fits (old held)

variable {m : MemoryStore}

theorem remove_answer (m : MemoryStore) (key : Key) : (m.remove key).1 = m.lookup key := by
  unfold remove lookup
  split
  · rename_i absent
    rw [absent]
    rfl
  · rename_i entry present
    rw [present]
    rfl

theorem entries_remove (m : MemoryStore) (key other : Key) :
    (m.remove key).2.entries[other]? = if other = key then none else m.entries[other]? := by
  unfold remove
  split
  · rename_i absent
    split
    · rename_i same
      rw [same, absent]
    · rfl
  · simp only [Std.HashMap.getElem?_erase, beq_iff_eq]
    by_cases same : other = key
    · simp [same]
    · simp [same, Ne.symm same]

theorem lookup_remove (m : MemoryStore) (key other : Key) :
    (m.remove key).2.lookup other = if other = key then none else m.lookup other := by
  rw [lookup, entries_remove]
  split <;> rfl

theorem sheds_remove (m : MemoryStore) (key : Key) : m.Sheds (m.remove key).2 := by
  refine ⟨fun other => ?_, ?_, ?_⟩
  · rw [lookup_remove]
    split
    · exact .inr rfl
    · exact .inl rfl
  · unfold remove
    split <;> rfl
  · unfold remove
    split <;> rfl

theorem entries_attach (m : MemoryStore) (item : Item) (stamp : UInt64) (key : Key) :
    (m.attach item stamp).entries[key]? = if key = item.key then some ⟨item, stamp⟩ else m.entries[key]? := by
  simp only [attach, Std.HashMap.getElem?_insert, beq_iff_eq]
  by_cases same : key = item.key
  · simp [same]
  · simp [same, Ne.symm same]

theorem lookup_evict (m : MemoryStore) (stamp : UInt64) (key other : Key) :
    (m.evict stamp key).lookup other = if other = key then none else m.lookup other :=
  lookup_remove { m with queue := m.queue.erase stamp } key other

/-- `n` is `m` after some evictions, each of which was counted. -/
structure Evicts (m n : MemoryStore) : Prop where
  lookup : ∀ key, n.lookup key = m.lookup key ∨ n.lookup key = none ∧ m.evictions < n.evictions
  evictions : m.evictions ≤ n.evictions
  closed : n.closed = m.closed
  maxBytes : n.maxBytes = m.maxBytes
  maxItems : n.maxItems = m.maxItems
  policy : n.policy = m.policy
  stamps : n.stamps = m.stamps
  cas : n.cas = m.cas

theorem Evicts.refl (m : MemoryStore) : m.Evicts m := ⟨fun _ => .inl rfl, Nat.le_refl _, rfl, rfl, rfl, rfl, rfl, rfl⟩

theorem Evicts.trans {l m n : MemoryStore} (left : l.Evicts m) (right : m.Evicts n) : l.Evicts n where
  lookup key := by
    have first := left.evictions
    have second := right.evictions
    rcases right.lookup key with same | ⟨gone, more⟩
    · rcases left.lookup key with before | ⟨gone, more⟩
      · exact .inl (same.trans before)
      · exact .inr ⟨same.trans gone, by omega⟩
    · exact .inr ⟨gone, by omega⟩
  evictions := Nat.le_trans left.evictions right.evictions
  closed := right.closed.trans left.closed
  maxBytes := right.maxBytes.trans left.maxBytes
  maxItems := right.maxItems.trans left.maxItems
  policy := right.policy.trans left.policy
  stamps := right.stamps.trans left.stamps
  cas := right.cas.trans left.cas

theorem Evicts.sheds {m n : MemoryStore} (evicts : m.Evicts n) : m.Sheds n :=
  ⟨fun key => (evicts.lookup key).imp_right And.left, evicts.closed, evicts.maxBytes⟩

theorem evictions_evict (m : MemoryStore) (stamp : UInt64) (key : Key) :
    (m.evict stamp key).evictions = m.evictions + 1 := by
  unfold evict remove
  dsimp only
  split <;> rfl

theorem bytes_remove_le (m : MemoryStore) (key : Key) : (m.remove key).2.bytes ≤ m.bytes := by
  unfold remove
  split
  · exact Nat.le_refl _
  · exact Nat.sub_le _ _

theorem bytes_evict_le (m : MemoryStore) (stamp : UInt64) (key : Key) : (m.evict stamp key).bytes ≤ m.bytes :=
  bytes_remove_le { m with queue := m.queue.erase stamp } key

theorem evicts_evict (m : MemoryStore) (stamp : UInt64) (key : Key) : m.Evicts (m.evict stamp key) := by
  have counted := m.evictions_evict stamp key
  have lookup (other : Key) := m.lookup_evict stamp key other
  refine ⟨fun other => ?_, by omega, ?_, ?_, ?_, ?_, ?_, ?_⟩
  · rw [lookup]
    split
    · exact .inr ⟨rfl, by omega⟩
    · exact .inl rfl
  all_goals
    unfold evict remove
    dsimp only
    split <;> rfl

/-- Enforcing the limits only evicts, and keeps the item just written. -/
theorem evicts_enforceLimits (m : MemoryStore) (written : Key) :
    m.Evicts (m.enforceLimits written) ∧ (m.enforceLimits written).lookup written = m.lookup written := by
  rw [enforceLimits]
  split
  · exact ⟨.refl m, rfl⟩
  · split
    · exact ⟨.refl m, rfl⟩
    · rename_i stamp key chosen
      obtain ⟨evicts, kept⟩ := evicts_enforceLimits (m.evict stamp key) written
      have spared : key ≠ written := by simpa using Queue.wanted_of_oldestWhere? chosen
      refine ⟨(m.evicts_evict stamp key).trans evicts, ?_⟩
      rw [kept, lookup_evict, if_neg spared.symm]
termination_by m.queue.size
decreasing_by exact queue_size_evict_lt (Queue.get?_of_oldestExcept? (by assumption))

theorem bytes_enforceLimits_le (m : MemoryStore) (written : Key) : (m.enforceLimits written).bytes ≤ m.bytes := by
  rw [enforceLimits]
  split
  · exact Nat.le_refl _
  · split
    · exact Nat.le_refl _
    · rename_i stamp key chosen
      exact Nat.le_trans (bytes_enforceLimits_le (m.evict stamp key) written) (m.bytes_evict_le stamp key)
termination_by m.queue.size
decreasing_by exact queue_size_evict_lt (Queue.get?_of_oldestExcept? (by assumption))

/-- Why the store refuses an item, if it does. -/
def refusal? (m : MemoryStore) (item : Item) : Option StoreError :=
  if m.closed then some (.outOfSpace item.weight 0)
  else if m.maxBytes < item.weight then some (.outOfSpace item.weight (m.maxBytes - m.bytes))
  else none

theorem refusal?_eq_none_iff {item : Item} :
    m.refusal? item = none ↔ m.closed = false ∧ item.weight ≤ m.maxBytes := by
  unfold refusal?
  cases m.closed with
  | true => simp
  | false => simp

theorem checkFits_eq (m : MemoryStore) (item : Item) : m.checkFits item = (m.refusal? item).elim (.ok ()) .error := by
  unfold checkFits refusal?
  split
  · rfl
  · split <;> rfl

theorem put_of_refusal {item : Item} {e : StoreError} (refused : m.refusal? item = some e) :
    m.put item = (.error e, m) := by
  rw [put, checkFits_eq, refused]
  rfl

/-- The store with an item in the place of what its key held, before the limits are enforced. -/
def withItem (m : MemoryStore) (item : Item) : MemoryStore :=
  ({ m with cas := m.cas.next.2, stamps := m.stamps.next.2 }.remove item.key).2.attach
    { item with cas := m.cas.next.1 } m.stamps.next.1

theorem entries_withItem (m : MemoryStore) (item : Item) (key : Key) : (m.withItem item).entries[key]? =
    if key = item.key then some ⟨{ item with cas := m.cas.next.1 }, m.stamps.next.1⟩ else m.entries[key]? := by
  rw [withItem, entries_attach]
  split
  · rfl
  · rename_i other
    rw [entries_remove, if_neg other]

theorem lookup_withItem (m : MemoryStore) (item : Item) (key : Key) :
    (m.withItem item).lookup key = if key = item.key then some { item with cas := m.cas.next.1 } else m.lookup key := by
  rw [lookup, entries_withItem]
  split <;> rfl

theorem bytes_withItem_le (m : MemoryStore) (item : Item) : (m.withItem item).bytes ≤ m.bytes + item.weight :=
  Nat.add_le_add_right (bytes_remove_le { m with cas := m.cas.next.2, stamps := m.stamps.next.2 } item.key) item.weight

theorem put_of_accepted {item : Item} (accepted : m.refusal? item = none) :
    m.put item = (.ok (m.lookup item.key), (m.withItem item).enforceLimits item.key) := by
  have old := { m with cas := m.cas.next.2, stamps := m.stamps.next.2 }.remove_answer item.key
  rw [put, checkFits_eq, accepted]
  exact congrArg (fun found => (Except.ok found, (m.withItem item).enforceLimits item.key)) old

/-- A swap of what the key holds is a put. -/
theorem replace_of_same {expected item : Item} (same : expected.key = item.key ∧ m.lookup item.key = some expected) :
    m.replace expected item = ((m.put item).1.map fun _ => true, (m.put item).2) := by
  rw [replace, if_pos same]
  rcases m.put item with ⟨e | old, n⟩ <;> rfl

/-- `n` has the limits, the policy and the eviction count of `m`. -/
structure Keeps (m n : MemoryStore) : Prop where
  evictions : n.evictions = m.evictions
  closed : n.closed = m.closed
  maxBytes : n.maxBytes = m.maxBytes
  maxItems : n.maxItems = m.maxItems
  policy : n.policy = m.policy

theorem Keeps.refl (m : MemoryStore) : m.Keeps m := ⟨rfl, rfl, rfl, rfl, rfl⟩

theorem keeps_remove (m : MemoryStore) (key : Key) : m.Keeps (m.remove key).2 := by
  constructor <;>
  · unfold remove
    split <;> rfl

theorem clocks_remove (m : MemoryStore) (key : Key) :
    (m.remove key).2.stamps = m.stamps ∧ (m.remove key).2.cas = m.cas := by
  unfold remove
  split <;> exact ⟨rfl, rfl⟩

theorem keeps_withItem (m : MemoryStore) (item : Item) : m.Keeps (m.withItem item) :=
  let keeps := keeps_remove { m with cas := m.cas.next.2, stamps := m.stamps.next.2 } item.key
  ⟨keeps.evictions, keeps.closed, keeps.maxBytes, keeps.maxItems, keeps.policy⟩

theorem clocks_withItem (m : MemoryStore) (item : Item) :
    (m.withItem item).stamps = m.stamps.next.2 ∧ (m.withItem item).cas = m.cas.next.2 :=
  clocks_remove { m with cas := m.cas.next.2, stamps := m.stamps.next.2 } item.key

/-- What the store holds once an item that it did not refuse was put. -/
structure Puts (m : MemoryStore) (item : Item) (n : MemoryStore) : Prop where
  here : n.lookup item.key = some { item with cas := m.cas.next.1 }
  elsewhere : ∀ key, key ≠ item.key → n.lookup key = m.lookup key ∨ n.lookup key = none ∧ m.evictions < n.evictions
  evictions : m.evictions ≤ n.evictions
  maxItems : n.maxItems = m.maxItems
  cas : n.cas = m.cas.next.2

theorem Sound.withItem (sound : m.Sound) {item : Item} (accepted : m.refusal? item = none) :
    (m.withItem item).Sound := by
  obtain ⟨opened, light⟩ := refusal?_eq_none_iff.1 accepted
  have keeps := m.keeps_withItem item
  have old {key : Key} {held : Item} (there : (m.withItem item).lookup key = some held) :
      key = item.key ∧ held = { item with cas := m.cas.next.1 } ∨ m.lookup key = some held := by
    rw [lookup_withItem] at there
    split at there
    · rename_i same
      exact .inl ⟨same, (Option.some.inj there).symm⟩
    · exact .inr there
  constructor
  · intro key held there
    rcases old there with ⟨rfl, rfl⟩ | before
    · rfl
    · exact sound.keyed before
  · intro key held there
    rw [keeps.closed, keeps.maxBytes]
    rcases old there with ⟨rfl, rfl⟩ | before
    · exact ⟨opened, light⟩
    · exact sound.fits before

theorem Sound.put (sound : m.Sound) {item : Item} (accepted : m.refusal? item = none) :
    ∃ n, m.put item = (.ok (m.lookup item.key), n) ∧ n.Sound ∧ m.Puts item n := by
  have keeps := m.keeps_withItem item
  obtain ⟨limited, kept⟩ := (m.withItem item).evicts_enforceLimits item.key
  refine ⟨_, put_of_accepted accepted, limited.sheds.sound (sound.withItem accepted), ?_, fun key other => ?_, ?_, ?_,
    ?_⟩
  · rw [kept, lookup_withItem, if_pos rfl]
  · have same : (m.withItem item).lookup key = m.lookup key := by rw [lookup_withItem, if_neg other]
    rw [← same, ← keeps.evictions]
    exact limited.lookup key
  · exact keeps.evictions ▸ limited.evictions
  · exact limited.maxItems.trans keeps.maxItems
  · exact limited.cas.trans (m.clocks_withItem item).2

/-- The store with the next stamp on the entry of a key. -/
def restamped (m : MemoryStore) (key : Key) (entry : MemoryEntry) : MemoryStore :=
  { m with
    entries := m.entries.insert key { entry with stamp := m.stamps.next.1 }
    queue := m.queue.touch entry.stamp m.stamps.next.1
    stamps := m.stamps.next.2 }

theorem entries_restamped (m : MemoryStore) (key : Key) (entry : MemoryEntry) (other : Key) :
    (m.restamped key entry).entries[other]? =
      if other = key then some { entry with stamp := m.stamps.next.1 } else m.entries[other]? := by
  simp only [restamped, Std.HashMap.getElem?_insert, beq_iff_eq]
  by_cases same : other = key
  · simp [same]
  · simp [same, Ne.symm same]

/-- A read that does not count, or finds nothing, changes nothing. -/
theorem get_idle {key : Key} (idle : m.policy.refreshesOnRead = false ∨ m.lookup key = none) :
    m.get key = (m.lookup key, m) := by
  unfold MemoryStore.get lookup
  cases found : m.entries[key]? with
  | none => rfl
  | some entry =>
    have quiet : m.policy.refreshesOnRead = false := idle.resolve_right (by simp [lookup, found])
    simp [quiet]

/-- A read that counts gives the entry of the key the next stamp. -/
theorem get_restamps {key : Key} {entry : MemoryEntry} (refreshes : m.policy.refreshesOnRead = true)
    (found : m.entries[key]? = some entry) : m.get key = (m.lookup key, m.restamped key entry) := by
  unfold MemoryStore.get lookup
  simp [found, refreshes, restamped]

theorem lookup_restamped {key : Key} {entry : MemoryEntry} (found : m.entries[key]? = some entry) (other : Key) :
    (m.restamped key entry).lookup other = m.lookup other := by
  rw [lookup, entries_restamped]
  split
  · rename_i here
    rw [here, lookup, found]
    rfl
  · rfl

theorem get_answer (m : MemoryStore) (key : Key) : (m.get key).1 = m.lookup key := by
  unfold MemoryStore.get lookup
  cases m.entries[key]? with
  | none => rfl
  | some entry => cases m.policy.refreshesOnRead <;> rfl

/-- A read changes nothing but stamps. -/
theorem Sound.get (sound : m.Sound) (key : Key) : ∃ n, m.get key = (m.lookup key, n) ∧ n.Sound ∧
    (∀ other, n.lookup other = m.lookup other) ∧ (∀ item, n.refusal? item = m.refusal? item) ∧ m.Keeps n ∧
    n.cas = m.cas := by
  by_cases idle : m.policy.refreshesOnRead = false ∨ m.lookup key = none
  · exact ⟨m, get_idle idle, sound, fun _ => rfl, fun _ => rfl, .refl m, rfl⟩
  · obtain ⟨refreshes, shown⟩ := not_or.1 idle
    obtain ⟨item, held⟩ := Option.ne_none_iff_exists'.1 shown
    obtain ⟨entry, found, -⟩ := Option.map_eq_some_iff.1 held
    have same := lookup_restamped found
    have sheds : m.Sheds (m.restamped key entry) := ⟨fun other => .inl (same other), rfl, rfl⟩
    exact ⟨_, get_restamps (by simpa using refreshes) found, sheds.sound sound, same, fun _ => rfl,
      ⟨rfl, rfl, rfl, rfl, rfl⟩, rfl⟩

/-- An item as heavy as the one stored under its key is not refused. -/
theorem Sound.refusal?_of_lookup (sound : m.Sound) {item other : Item} (held : m.lookup item.key = some item)
    (weight : other.weight = item.weight) : m.refusal? other = none := by
  obtain ⟨opened, light⟩ := sound.fits held
  rw [refusal?, opened, weight, if_neg (Nat.not_lt.2 light)]
  rfl

theorem Sound.new (maxItems maxBytes : Nat) (policy : Policy) : (MemoryStore.new maxItems maxBytes policy).Sound := by
  constructor <;> intro key item held <;> simp [lookup, MemoryStore.new] at held

end BlockCache.MemoryStore

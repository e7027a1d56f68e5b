import BlockCache.Proofs.Backends.Recency
import BlockCache.Proofs.Index.Runs

/-!
# An index and a map store in lockstep

An index matches a map store if both hold the same items under the same stamps and have drawn the same values.
Writes, reads and removals keep them matching, and so does the item limit: the entry with the smallest stamp
of all partitions is the oldest entry of the map that was not just written. Only byte limits, which count
blocks in an index and bytes in a map, can part them.
-/

namespace BlockCache.Index

/-- A map store that holds what an index holds, under the same stamps. -/
structure Matches (x : Index) (m : MemoryStore) : Prop where
  sound : x.Sound
  queued : m.Queued
  view : ∀ key, x.view key = m.lookup key
  links : ∀ link ∈ x.links, ∃ entry, m.entries[link.key]? = some entry ∧ entry.stamp = link.stamp
  stamps : m.stamps = x.clocks.stamps
  cas : m.cas = x.clocks.cas
  evictions : m.evictions = x.evictions
  policy : m.policy = x.policy
  maxItems : m.maxItems = x.maxItems

namespace Matches

variable {x y z : Index} {m : MemoryStore}

theorem new (s : StorageSettings) (maxBytes : Nat) :
    (Index.new s).Matches (.new s.maxItems maxBytes s.eviction) := by
  have sound := Sound.new s
  constructor
  · exact sound
  · exact .new _ _ _
  · intro key
    rw [view_new]
    simp [MemoryStore.lookup, MemoryStore.new]
  · intro link mem
    exact absurd (view_new s link.key) (sound.view_ne_none_iff.2 ⟨link, mem, rfl⟩)
  · rfl
  · rfl
  · exact (evictions_new s).symm
  · rfl
  · rfl

/-- Each entry has the link of its key, with its stamp. -/
theorem link_of_entry (matching : x.Matches m) {key : Key} {entry : MemoryEntry} (held : m.entries[key]? = some entry) :
    ∃ link ∈ x.links, link.key = key ∧ link.stamp = entry.stamp := by
  have shown : x.view key ≠ none := by
    rw [matching.view, MemoryStore.lookup, held]
    exact Option.some_ne_none _
  obtain ⟨link, mem, rfl⟩ := matching.sound.view_ne_none_iff.1 shown
  obtain ⟨other, there, same⟩ := matching.links link mem
  obtain rfl := Option.some.inj (held.symm.trans there)
  exact ⟨link, mem, rfl, same.symm⟩

theorem keys_perm (matching : x.Matches m) : x.keys.Perm m.keys := by
  have distinct : m.keys.Nodup := by
    refine List.Pairwise.imp (fun differs same => ?_) m.entries.distinct_keys
    simp [same] at differs
  rw [keys_eq, List.perm_ext_iff_of_nodup matching.sound.nodup_keys distinct]
  intro key
  rw [MemoryStore.keys, Std.HashMap.mem_keys, Std.HashMap.mem_iff_isSome_getElem?, List.mem_map]
  constructor
  · rintro ⟨link, mem, rfl⟩
    obtain ⟨entry, held, -⟩ := matching.links link mem
    rw [held]
    rfl
  · intro present
    obtain ⟨entry, held⟩ := Option.isSome_iff_exists.1 present
    obtain ⟨link, mem, keyed, -⟩ := matching.link_of_entry held
    exact ⟨link, mem, keyed⟩

theorem size_eq (matching : x.Matches m) : m.size = x.size := by
  have length := matching.keys_perm.length_eq
  rw [keys_eq, List.length_map, ← matching.sound.size_eq] at length
  rw [length, MemoryStore.size, MemoryStore.keys, Std.HashMap.length_keys]

theorem contains_eq (matching : x.Matches m) (key : Key) : m.contains key = x.contains key := by
  rw [matching.sound.contains_eq, matching.view, MemoryStore.lookup, MemoryStore.contains,
    Std.HashMap.contains_eq_isSome_getElem?, Option.isSome_map]

section Limit

variable {written victim : Key} (matching : x.Matches m) (evicted : x.evictOldest = (.ok (some victim), y))

include matching evicted

/-- The map's next victim is that of the index, unless it was just written. -/
theorem oldestExcept?_eq (spared : victim ≠ written) :
    ∃ stamp, m.queue.oldestExcept? written = some (stamp, victim) := by
  obtain ⟨-, -, link, mem, rfl, least⟩ := matching.sound.of_evictOldest evicted
  obtain ⟨entry, held, stamped⟩ := matching.links link mem
  have listed := (matching.queued.lists _ _).2 ⟨entry, held, stamped⟩
  have wanted : decide (link.key ≠ written) = true := decide_eq_true spared
  cases chosen : m.queue.oldestExcept? written with
  | none =>
    have := Queue.oldestWhere?_eq_none_iff.1 chosen _ _ listed
    exact absurd (wanted.symm.trans this) nofun
  | some first =>
    obtain ⟨stamp, key⟩ := first
    have below := Queue.oldestWhere?_le chosen listed wanted
    have there := Queue.get?_of_oldestExcept? chosen
    obtain ⟨other, also, rfl⟩ := (matching.queued.lists _ _).1 there
    obtain ⟨second, memSecond, rfl, same⟩ := matching.link_of_entry also
    have above := least second memSecond
    rw [same] at above
    have equal : other.stamp = link.stamp := UInt64.le_antisymm below above
    rw [equal] at there
    exact ⟨_, by rw [Option.some.inj (there.symm.trans listed)]⟩

theorem evict {stamp : UInt64} (chosen : m.queue.get? stamp = some victim) : y.Matches (m.evict stamp victim) := by
  obtain ⟨after, evicts, -⟩ := matching.sound.of_evictOldest evicted
  obtain ⟨queued, entries⟩ := matching.queued.evict chosen
  have keeps := m.evicts_evict stamp victim
  constructor
  · exact after
  · exact queued
  · intro key
    rw [evicts.view, MemoryStore.lookup_evict, matching.view]
    simp only [List.mem_singleton]
  · intro link mem
    obtain ⟨old, other⟩ := (evicts.links link).1 mem
    rw [entries, if_neg (fun same => other (List.mem_singleton.2 same))]
    exact matching.links link old
  · rw [keeps.stamps, evicts.clocks, matching.stamps]
  · rw [keeps.cas, evicts.clocks, matching.cas]
  · rw [m.evictions_evict, evicts.evictions, matching.evictions]
    rfl
  · rw [keeps.policy, evicts.shape.policy, matching.policy]
  · rw [keeps.maxItems, evicts.shape.maxItems, matching.maxItems]

end Limit

/-- While the byte limit holds, the map enforces the item limit as the index does. -/
theorem enforceLimits (matching : x.Matches m) {written : Key} (youngest : x.Youngest written)
    (positive : 0 < x.maxItems) (light : m.bytes ≤ m.maxBytes) {gone : List Key} (run : Evicting x gone z) (limited : z.size ≤ z.maxItems) :
    z.Matches (m.enforceLimits written) := by
  induction run generalizing m with
  | done x =>
    have within : m.withinLimits = true := by
      simp [MemoryStore.withinLimits, matching.size_eq, matching.maxItems, limited, light]
    rw [MemoryStore.enforceLimits, if_pos within]
    exact matching
  | @step x y z victim gone above evicted _ ih =>
    have beyond : ¬m.withinLimits = true := by
      rw [MemoryStore.withinLimits, matching.size_eq, matching.maxItems, decide_eq_false (Nat.not_le.2 above)]
      exact Bool.false_ne_true
    obtain ⟨spared, still⟩ := youngest.evictOldest matching.sound positive above evicted
    obtain ⟨stamp, chosen⟩ := matching.oldestExcept?_eq evicted spared
    have next := matching.evict evicted (Queue.get?_of_oldestExcept? chosen)
    have same := (m.evicts_evict stamp victim).maxBytes
    have less := m.bytes_evict_le stamp victim
    have shape := (matching.sound.of_evictOldest evicted).2.1.shape
    rw [MemoryStore.enforceLimits, if_neg beyond]
    split
    · rename_i absent
      cases chosen.symm.trans absent
    · rename_i other key found
      obtain ⟨rfl, rfl⟩ := Prod.mk.inj (Option.some.inj (chosen.symm.trans found))
      exact ih next still (shape.maxItems ▸ positive) (by omega) limited

/-- A write for which nothing is evicted. -/
theorem withItem (matching : x.Matches m) {item : Item} (after : y.Sound)
    (writes : x.Writes (x.clocks.commit item).1 [] y) (few : x.clocks.stamps.issued + 1 < UInt64.size) : y.Matches (m.withItem item) := by
  have keeps := m.keeps_withItem item
  obtain ⟨stamps, cas⟩ := m.clocks_withItem item
  constructor
  · exact after
  · exact matching.queued.withItem (matching.stamps ▸ few) item
  · intro key
    rw [writes.view, MemoryStore.lookup_withItem, matching.cas, matching.view, if_neg List.not_mem_nil]
    rfl
  · intro link mem
    rw [MemoryStore.entries_withItem]
    rcases writes.links link mem with ⟨old, other⟩ | ⟨here, stamped⟩
    · rw [if_neg (show link.key ≠ item.key from other)]
      exact matching.links link old
    · rw [if_pos (show link.key = item.key from here), matching.stamps]
      exact ⟨_, rfl, stamped.symm⟩
  · rw [stamps, writes.clocks, matching.stamps]
    rfl
  · rw [cas, writes.clocks, matching.cas]
    rfl
  · rw [keeps.evictions, writes.evictions, matching.evictions]
    rfl
  · rw [keeps.policy, writes.shape.policy, matching.policy]
  · rw [keeps.maxItems, writes.shape.maxItems, matching.maxItems]

/-- A write that evicts nothing for lack of bytes is made alike, and so is the item limit after it. -/
theorem commits (matching : x.Matches m) {item : Item} {first second : List Key}
    (commits : x.Commits item first y second z) (positive : 0 < x.maxItems) (limited : x.size ≤ x.maxItems)
    (room : ((x.home item.key).put x.clocks item).2.1.evictions = (x.home item.key).evictions)
    (light : (m.withItem item).bytes ≤ m.maxBytes) (few : z.clocks.stamps.issued < UInt64.size) :
    z.Matches ((m.withItem item).enforceLimits item.key) ∧ z.size ≤ z.maxItems := by
  have writes := commits.writes
  obtain rfl := commits.first_eq_nil room
  have fewer : x.clocks.stamps.issued + 1 < UInt64.size := by
    rw [commits.clocks] at few
    exact few
  have middle := matching.withItem commits.sound writes fewer
  have holds := commits.limited limited
  refine ⟨middle.enforceLimits commits.youngest (writes.shape.maxItems ▸ positive) ?_ commits.evicting holds, holds⟩
  rw [(m.keeps_withItem item).maxBytes]
  exact light

theorem get (matching : x.Matches m) (key : Key) (few : (x.get key).2.clocks.stamps.issued < UInt64.size) :
    (x.get key).2.Matches (m.get key).2 := by
  by_cases idle : x.policy.refreshesOnRead = false ∨ x.view key = none
  · have idleMap : m.policy.refreshesOnRead = false ∨ m.lookup key = none := by
      rwa [matching.policy, ← matching.view]
    rw [matching.sound.get_idle idle, MemoryStore.get_idle idleMap]
    exact matching
  · obtain ⟨refreshes, shown⟩ := not_or.1 idle
    rw [Bool.not_eq_false] at refreshes
    obtain ⟨link, mem, rfl⟩ := matching.sound.view_ne_none_iff.1 shown
    obtain ⟨entry, held, -⟩ := matching.links link mem
    obtain ⟨clocks, links⟩ := matching.sound.get_restamps refreshes shown few
    obtain ⟨y, answer, after, reads⟩ := matching.sound.get link.key few
    rw [MemoryStore.get_restamps (matching.policy ▸ refreshes) held]
    obtain rfl : y = (x.get link.key).2 := by rw [answer]
    have fewer : m.stamps.issued + 1 < UInt64.size := by
      rw [clocks] at few
      rw [matching.stamps]
      exact few
    constructor
    · exact after
    · exact matching.queued.restamped fewer held
    · intro other
      rw [reads.view, MemoryStore.lookup_restamped held, matching.view]
    · intro other there
      rw [MemoryStore.entries_restamped]
      rcases links other there with ⟨old, differs⟩ | ⟨here, stamped⟩
      · rw [if_neg differs]
        exact matching.links other old
      · rw [if_pos here]
        exact ⟨_, rfl, by rw [stamped, matching.stamps]⟩
    · rw [clocks]
      exact congrArg (·.next.2) matching.stamps
    · rw [reads.cas]
      exact matching.cas
    · rw [reads.evictions]
      exact matching.evictions
    · rw [reads.shape.policy]
      exact matching.policy
    · rw [reads.shape.maxItems]
      exact matching.maxItems

/-- What is removed from both leaves them matching. -/
theorem removes (matching : x.Matches m) {key : Key} (after : y.Sound) (removes : x.Removes key y) :
    y.Matches (m.remove key).2 := by
  have keeps := m.keeps_remove key
  obtain ⟨stamps, cas⟩ := m.clocks_remove key
  constructor
  · exact after
  · exact matching.queued.remove key
  · intro other
    rw [removes.view, MemoryStore.lookup_remove, matching.view]
  · intro link mem
    have other : link.key ≠ key := by
      rintro rfl
      have shown := after.view_ne_none_iff.2 ⟨link, mem, rfl⟩
      rw [removes.view, if_pos rfl] at shown
      exact shown rfl
    rw [MemoryStore.entries_remove, if_neg other]
    exact matching.links link (removes.links link mem)
  · rw [stamps, removes.clocks, matching.stamps]
  · rw [cas, removes.clocks, matching.cas]
  · rw [keeps.evictions, removes.evictions, matching.evictions]
  · rw [keeps.policy, removes.shape.policy, matching.policy]
  · rw [keeps.maxItems, removes.shape.maxItems, matching.maxItems]

/-- Stores without any entry match if they have counted and drawn alike. -/
theorem empties {n : MemoryStore} (matching : x.Matches m) (after : y.Sound) (empties : x.Empties y)
    (entries : n.entries = ∅) (queue : n.queue = .empty) (keeps : n.evictions = m.evictions ∧ n.policy = m.policy ∧ n.maxItems = m.maxItems)
    (stamps : n.stamps = m.stamps) (cas : n.cas = m.cas) : y.Matches n := by
  obtain ⟨evictions, policy, maxItems⟩ := keeps
  constructor
  · exact after
  · exact .of_empty entries queue
  · intro key
    rw [empties.view, MemoryStore.lookup, entries]
    simp
  · intro link mem
    have shown := after.view_ne_none_iff.2 ⟨link, mem, rfl⟩
    exact absurd (empties.view link.key) shown
  · rw [stamps, empties.clocks, matching.stamps]
  · rw [cas, empties.clocks, matching.cas]
  · rw [evictions, empties.evictions, matching.evictions]
  · rw [policy, empties.policy, matching.policy]
  · rw [maxItems, empties.maxItems, matching.maxItems]

end Matches
end BlockCache.Index

import BlockCache.Proofs.MemoryStore

/-!
# The order of the map store's entries

The queue of a map store names each entry once, by the stamp that the entry carries. Every operation keeps
queue and entries in step, so the victims of the limits are entries, and their order is that of the stamps.
-/

namespace BlockCache.MemoryStore

/-- The queue has the stamps and keys of the entries and nothing else, and all stamps were drawn. -/
structure Queued (m : MemoryStore) : Prop where
  lists : ∀ stamp key, m.queue.get? stamp = some key ↔ ∃ entry, m.entries[key]? = some entry ∧ entry.stamp = stamp
  stamps : ∀ {key : Key} {entry : MemoryEntry}, m.entries[key]? = some entry → entry.stamp.toNat ≤ m.stamps.issued

theorem Queued.new (maxItems maxBytes : Nat) (policy : Policy) : (MemoryStore.new maxItems maxBytes policy).Queued := by
  constructor
  · simp [MemoryStore.new]
  · intro key entry held
    simp [MemoryStore.new] at held

theorem Queued.of_empty {m : MemoryStore} (entries : m.entries = ∅) (queue : m.queue = .empty) : m.Queued := by
  constructor
  · simp [entries, queue]
  · intro key entry held
    simp [entries] at held

namespace Queued

variable {m : MemoryStore} (queued : m.Queued)

include queued

/-- Entries with the same stamp have the same key. -/
theorem key_eq {key other : Key} {entry second : MemoryEntry} (held : m.entries[key]? = some entry)
    (also : m.entries[other]? = some second) (same : second.stamp = entry.stamp) : other = key := by
  have first := (queued.lists entry.stamp key).2 ⟨entry, held, rfl⟩
  have last := (queued.lists entry.stamp other).2 ⟨second, also, same⟩
  exact Option.some.inj (last.symm.trans first)

/-- A store is in step if it lacks one entry, and the queue lacks its stamp. -/
theorem without {n : MemoryStore} {key : Key} {entry : MemoryEntry} (held : m.entries[key]? = some entry)
    (entries : ∀ other, n.entries[other]? = if other = key then none else m.entries[other]?)
    (queue : ∀ stamp, n.queue.get? stamp = if entry.stamp = stamp then none else m.queue.get? stamp)
    (stamps : n.stamps = m.stamps) : n.Queued := by
  constructor
  · intro stamp other
    rw [queue]
    by_cases taken : entry.stamp = stamp
    · rw [if_pos taken]
      refine ⟨nofun, ?_⟩
      rintro ⟨second, there, stamped⟩
      rw [entries] at there
      split at there
      · cases there
      · rename_i differs
        exact absurd (queued.key_eq held there (stamped.trans taken.symm)) differs
    · rw [if_neg taken, queued.lists]
      refine exists_congr fun second => ?_
      rw [entries]
      by_cases here : other = key
      · subst here
        rw [if_pos rfl, held]
        refine iff_of_false (fun both => ?_) (fun both => nomatch both.1)
        obtain rfl := Option.some.inj both.1
        exact taken both.2
      · rw [if_neg here]
  · intro other second there
    rw [entries] at there
    rw [stamps]
    split at there
    · cases there
    · exact queued.stamps there

theorem remove (key : Key) : (m.remove key).2.Queued := by
  cases held : m.entries[key]? with
  | none =>
    have same : m.remove key = (none, m) := by
      rw [MemoryStore.remove, held]
    rw [same]
    exact queued
  | some entry =>
    apply queued.without held (m.entries_remove key)
    · intro stamp
      rw [MemoryStore.remove, held]
      exact Queue.get?_erase ..
    · exact (m.clocks_remove key).1

/-- The victim of an eviction is an entry, which is taken out. -/
theorem evict {stamp : UInt64} {key : Key} (chosen : m.queue.get? stamp = some key) :
    (m.evict stamp key).Queued ∧
      ∀ other, (m.evict stamp key).entries[other]? = if other = key then none else m.entries[other]? := by
  have entries (other : Key) : (m.evict stamp key).entries[other]? = if other = key then none else m.entries[other]? :=
    entries_remove { m with queue := m.queue.erase stamp } key other
  obtain ⟨entry, held, rfl⟩ := (queued.lists stamp key).1 chosen
  refine ⟨queued.without held entries (fun stamp => ?_) (m.evicts_evict entry.stamp key).stamps, entries⟩
  rw [MemoryStore.evict, MemoryStore.remove, held]
  dsimp only
  rw [Queue.get?_erase, Queue.get?_erase]
  split <;> rfl

/-- A store is in step if it has one entry more, under a stamp that is younger than all others. -/
theorem push {n : MemoryStore} (key : Key) (entry : MemoryEntry) (absent : m.entries[key]? = none)
    (entries : ∀ other, n.entries[other]? = if other = key then some entry else m.entries[other]?)
    (queue : n.queue = m.queue.push entry.stamp key) (fresh : m.stamps.issued < entry.stamp.toNat)
    (drawn : entry.stamp.toNat ≤ n.stamps.issued) : n.Queued := by
  have older {other : Key} {second : MemoryEntry} (there : m.entries[other]? = some second) :
      second.stamp ≠ entry.stamp := by
    intro same
    have := queued.stamps there
    rw [same] at this
    omega
  constructor
  · intro stamp other
    rw [queue, Queue.get?_push]
    by_cases taken : entry.stamp = stamp
    · rw [if_pos taken, Option.some.injEq]
      constructor
      · rintro rfl
        exact ⟨entry, (entries key).trans (if_pos rfl), taken⟩
      · rintro ⟨second, there, stamped⟩
        rw [entries] at there
        split at there
        · rename_i same
          exact same.symm
        · exact absurd (stamped.trans taken.symm) (older there)
    · rw [if_neg taken, queued.lists]
      refine exists_congr fun second => ?_
      rw [entries]
      by_cases here : other = key
      · subst here
        rw [if_pos rfl, absent]
        refine iff_of_false (fun both => nomatch both.1) fun both => ?_
        obtain rfl := Option.some.inj both.1
        exact taken both.2
      · rw [if_neg here]
  · intro other second there
    rw [entries] at there
    split at there
    · obtain rfl := Option.some.inj there
      exact drawn
    · exact Nat.le_trans (queued.stamps there) (Nat.le_of_lt (Nat.lt_of_lt_of_le fresh drawn))

section Draws

variable (few : m.stamps.issued + 1 < UInt64.size)

include few

theorem withItem (item : Item) : (m.withItem item).Queued := by
  have stamp : m.stamps.next.1.toNat = m.stamps.issued + 1 := UInt64.toNat_ofNat_of_lt' few
  have stamps := (m.clocks_remove item.key).1
  refine (queued.remove item.key).push item.key ⟨{ item with cas := m.cas.next.1 }, m.stamps.next.1⟩ ?_ ?_ ?_ ?_ ?_
  · rw [entries_remove, if_pos rfl]
  · intro other
    rw [entries_withItem, entries_remove]
    split <;> rfl
  · rw [MemoryStore.withItem, MemoryStore.remove, MemoryStore.remove]
    cases m.entries[item.key]? <;> rfl
  · rw [stamps, stamp]
    exact Nat.lt_succ_self _
  · rw [stamp, (m.clocks_withItem item).1]
    exact Nat.le_refl _

theorem restamped {key : Key} {entry : MemoryEntry} (held : m.entries[key]? = some entry) :
    (m.restamped key entry).Queued := by
  have stamp : m.stamps.next.1.toNat = m.stamps.issued + 1 := UInt64.toNat_ofNat_of_lt' few
  have stamps := (m.clocks_remove key).1
  refine (queued.remove key).push key { entry with stamp := m.stamps.next.1 } ?_ ?_ ?_ ?_ ?_
  · rw [entries_remove, if_pos rfl]
  · intro other
    rw [entries_restamped, entries_remove]
    split <;> rfl
  · have listed := (queued.lists entry.stamp key).2 ⟨entry, held, rfl⟩
    rw [MemoryStore.restamped, MemoryStore.remove, held, Queue.touch, listed]
  · rw [stamps, stamp]
    exact Nat.lt_succ_self _
  · rw [stamp]
    exact Nat.le_refl _

end Draws

end Queued
end BlockCache.MemoryStore

import BlockCache.Proofs.Partition.Invariant

/-!
# Eviction

An eviction takes out the entry with the smallest stamp, and never fails. `Evicting` is a run of
evictions, each made because something was still needed: what one eviction does to a sound partition,
the run does to it for all its victims. Both loops of a write are such runs: the one that makes room
for a value always finds it if the arena is large enough at all, and the one that restores the ceiling
stops when the ceiling is met or no other entry is left.
-/

namespace BlockCache.Partition

/-- Evictions one after the other, each made while `need` held; `gone` are their victims in order. -/
inductive Evicting (spared : Option Key) (need : Partition → Prop) : Partition → List Key → Partition → Prop where
  | done (p : Partition) : Evicting spared need p [] p
  | step {p q r : Partition} {key : Key} {gone : List Key} : need p → p.evictOne spared = (.ok (some key), q) →
      Evicting spared need q gone r → Evicting spared need p (key :: gone) r

theorem victim?_eq (p : Partition) (spared : Option Key) :
    p.victim? spared = p.queue.oldestWhere? fun key => some key ≠ spared := by
  cases spared with
  | none => simp [victim?, Queue.oldest?]
  | some key => simp [victim?, Queue.oldestExcept?]

namespace Sound

variable {p q : Partition} {drawn : Nat} {spared : Option Key}

/-- There is no victim only if every entry is spared. -/
theorem victim?_eq_none_iff (sound : p.Sound drawn) :
    p.victim? spared = none ↔ ∀ link ∈ p.chains.links, some link.key = spared := by
  rw [victim?_eq, Queue.oldestWhere?_eq_none_iff]
  constructor
  · intro none link mem
    simpa using none link.stamp link.key (sound.queued.get? mem)
  · intro all stamp key queued
    obtain ⟨link, mem, -, rfl⟩ := (sound.queued _ _).1 queued
    simpa using all link mem

/-- The victim is an entry that is not spared, and no other such entry is older. -/
theorem victim?_eq_some (sound : p.Sound drawn) {stamp : UInt64} {key : Key}
    (chosen : p.victim? spared = some (stamp, key)) :
    some key ≠ spared ∧ (∃ link ∈ p.chains.links, link.stamp = stamp ∧ link.key = key) ∧
      ∀ link ∈ p.chains.links, some link.key ≠ spared → stamp ≤ link.stamp := by
  rw [victim?_eq] at chosen
  refine ⟨by simpa using Queue.wanted_of_oldestWhere? chosen,
    (sound.queued _ _).1 (Queue.get?_of_oldestWhere? chosen), fun link mem other => ?_⟩
  exact Queue.oldestWhere?_le chosen (sound.queued.get? mem) (by simpa using other)

/-- An eviction takes the victim out, or there is none. -/
theorem evictOne (sound : p.Sound drawn) (spared : Option Key) :
    (p.victim? spared = none ∧ p.evictOne spared = (.ok none, p)) ∨
    ∃ stamp key q, p.victim? spared = some (stamp, key) ∧ p.evictOne spared = (.ok (some key), q) ∧
      q.Sound drawn ∧ p.Without [key] q ∧ q.evictions = p.evictions + 1 := by
  cases chosen : p.victim? spared with
  | none => exact .inl ⟨rfl, by rw [Partition.evictOne, chosen]⟩
  | some entry =>
    obtain ⟨stamp, key⟩ := entry
    obtain ⟨-, ⟨link, mem, -, same⟩, -⟩ := sound.victim?_eq_some chosen
    obtain ⟨q, unlinked, after, without, evictions⟩ := sound.unlink (sound.chains.find?_eq_some_iff.2 ⟨mem, same⟩)
    refine .inr ⟨stamp, key, { q with evictions := q.evictions + 1 }, rfl, ?_, ?_, ?_, ?_⟩
    · rw [Partition.evictOne, chosen]
      dsimp only
      rw [unlinked]
    · exact ⟨after.arena, after.chains, after.count, after.queued, after.stamps, after.runs,
        fun link mem => (after.stored link mem).imp fun _ holds => ⟨holds.key, holds.bytes, holds.length, holds.blocks⟩⟩
    · exact ⟨without.links, without.view, without.stored, without.count, without.blockSize, without.totalBlocks,
        without.closed, without.ceiling⟩
    · rw [← evictions]

theorem of_evictOne (sound : p.Sound drawn) {key : Key} (evicted : p.evictOne spared = (.ok (some key), q)) :
    q.Sound drawn ∧ p.Without [key] q ∧ q.evictions = p.evictions + 1 ∧ some key ≠ spared := by
  rcases sound.evictOne spared with ⟨-, same⟩ | ⟨stamp, victim, r, chosen, same, after, without, evictions⟩
  · simp [same] at evicted
  · rw [same] at evicted
    obtain ⟨rfl, rfl⟩ : victim = key ∧ r = q := by simpa using evicted
    exact ⟨after, without, evictions, (sound.victim?_eq_some chosen).1⟩

theorem oldestStamp?_eq_none_iff (sound : p.Sound drawn) : p.oldestStamp? = none ↔ p.chains.links = [] := by
  have none_iff : p.victim? none = none ↔ ∀ link ∈ p.chains.links, some link.key = none := sound.victim?_eq_none_iff
  rw [oldestStamp?, Option.map_eq_none_iff, List.eq_nil_iff_forall_not_mem]
  exact none_iff.trans (by simp)

/-- Evicting the oldest entry takes it out, as long as there is one. -/
theorem evictOldest (sound : p.Sound drawn) {stamp : UInt64} (oldest : p.oldestStamp? = some stamp) :
    ∃ link ∈ p.chains.links, link.stamp = stamp ∧ (∀ other ∈ p.chains.links, stamp ≤ other.stamp) ∧
      ∃ q, p.evictOldest = (.ok (some link.key), q) ∧ q.Sound drawn ∧ p.Without [link.key] q ∧
        q.evictions = p.evictions + 1 := by
  obtain ⟨entry, chosen, rfl⟩ := Option.map_eq_some_iff.1 oldest
  rcases sound.evictOne none with ⟨noVictim, -⟩ | ⟨stamp, key, q, victim, evicted, after, without, evictions⟩
  · cases chosen.symm.trans noVictim
  · obtain rfl : entry = (stamp, key) := Option.some.inj (chosen.symm.trans victim)
    obtain ⟨-, ⟨link, mem, stamped, rfl⟩, least⟩ := sound.victim?_eq_some victim
    exact ⟨link, mem, stamped, fun other held => least other held nofun, q, evicted, after, without, evictions⟩

/-- What a run of evictions does: it takes its victims out, each once, and counts them. -/
theorem evicting (sound : p.Sound drawn) {need : Partition → Prop} {gone : List Key}
    (run : Evicting spared need p gone q) :
    q.Sound drawn ∧ p.Without gone q ∧ q.evictions = p.evictions + gone.length ∧ gone.Nodup ∧
      ∀ key ∈ gone, some key ≠ spared := by
  induction run with
  | done p => exact ⟨sound, .refl p, rfl, List.nodup_nil, by simp⟩
  | @step p q r key gone _ evicted _ ih =>
    obtain ⟨middle, first, one, other⟩ := sound.of_evictOne evicted
    obtain ⟨after, rest, more, nodup, others⟩ := ih middle
    refine ⟨after, first.trans rest, ?_, List.nodup_cons.2 ⟨fun again => ?_, nodup⟩, ?_⟩
    · rw [more, one, List.length_cons]
      omega
    · exact rest.stored key again (by rw [first.view]; simp)
    · simpa using ⟨other, others⟩

/-- Room is found for every value that the arena could hold if it were empty: the loop evicts while
reserving is refused, and at the latest it can be done when every entry is gone. -/
theorem allocEvicting {p : Partition} (sound : p.Sound drawn) {size : Nat} (positive : 0 < size)
    (fits : size ≤ p.arena.size) :
    ∃ gone q r a, Evicting none (fun p => p.arena.alloc size = .error (.outOfSpace size p.arena.freeBytes)) p gone q ∧
      q.arena.alloc size = .ok (r, a) ∧ p.allocEvicting size = (.ok r, { q with arena := a }) := by
  have opened : p.arena.closed = false := by
    cases closed : p.arena.closed
    · rfl
    · rw [Arena.size, sound.arena.released closed] at fits
      omega
  rcases reserved : p.arena.alloc size with e | ⟨r, a⟩
  · have refused := Arena.alloc_error opened reserved
    rw [refused] at reserved
    rcases sound.evictOne none with ⟨noVictim, -⟩ | ⟨stamp, key, q, -, evicted, after, without, -⟩
    · -- no entry is left: the arena has no live run, and the value fits
      have empty : p.chains.links = [] := by
        rw [List.eq_nil_iff_forall_not_mem]
        exact fun link mem => by simpa using sound.victim?_eq_none_iff.1 noVictim link mem
      have runs := sound.runs
      rw [empty, List.map_nil, List.perm_nil] at runs
      have none_live (start : Nat) : p.arena.heads[start]? = none := by
        cases live : p.arena.heads[start]? with
        | none => rfl
        | some n =>
          have := Std.TreeMap.mem_toList_iff_getElem?_eq_some.2 live
          simp [runs] at this
      obtain ⟨r, a, room⟩ := sound.arena.alloc_of_empty none_live positive fits
      simp [room] at reserved
    · obtain ⟨gone, q', r, a, run, room, answer⟩ := after.allocEvicting positive (without.size ▸ fits)
      refine ⟨key :: gone, q', r, a, .step reserved evicted run, room, ?_⟩
      rw [Partition.allocEvicting, reserved]
      dsimp only
      split
      · simp_all
      · simp_all
      · rename_i other same
        obtain ⟨-, rfl⟩ : _ ∧ q = other := by simpa [evicted] using same
        exact answer
  · refine ⟨[], p, r, a, .done p, reserved, ?_⟩
    rw [Partition.allocEvicting, reserved]
termination_by p.chains.links.length
decreasing_by exact links_evictOne_lt evicted

/-- The ceiling is restored by evicting other entries than the one written, as far as there are any. -/
theorem enforceCeiling {p : Partition} (sound : p.Sound drawn) (written : Key) :
    ∃ gone q, Evicting (some written) (fun p => p.arena.freeBytes < p.ceiling) p gone q ∧
      p.enforceCeiling written = (.ok (), q) ∧
      (q.ceiling ≤ q.arena.freeBytes ∨ ∀ link ∈ q.chains.links, link.key = written) := by
  by_cases below : p.arena.freeBytes < p.ceiling
  · rcases sound.evictOne (some written) with ⟨noVictim, same⟩ | ⟨stamp, key, q, -, evicted, after, -⟩
    · refine ⟨[], p, .done p, ?_, .inr fun link mem => ?_⟩
      · rw [Partition.enforceCeiling, if_pos below]
        split
        · simp_all
        · simp_all
        · simp_all
      · simpa using sound.victim?_eq_none_iff.1 noVictim link mem
    · obtain ⟨gone, r, run, answer, stop⟩ := after.enforceCeiling written
      refine ⟨key :: gone, r, .step below evicted run, ?_, stop⟩
      rw [Partition.enforceCeiling, if_pos below]
      split
      · simp_all
      · simp_all
      · rename_i other same
        obtain ⟨-, rfl⟩ : _ ∧ q = other := by simpa [evicted] using same
        exact answer
  · exact ⟨[], p, .done p, by rw [Partition.enforceCeiling, if_neg below], .inl (by omega)⟩
termination_by p.chains.links.length
decreasing_by exact links_evictOne_lt evicted

end Sound
end BlockCache.Partition

import BlockCache.Proofs.Partition.Alike

/-!
# What a clear leaves

A partition keeps what it was built with: the number of its buckets, the blocks of its arena and its
ceiling. `asNew` is the partition that was built so. Only `close` changes it, and so a partition that was
cleared is alike to the one that was built.
-/

namespace BlockCache

namespace Arena

/-- The arena as it was built. -/
def asNew (a : Arena) : Arena := { a.clear with tape := .blank }

variable {a b : Arena} {r : Region}

theorem asNew_alloc {size : Nat} (reserved : a.alloc size = .ok (r, b)) : b.asNew = a.asNew := by
  unfold alloc at reserved
  dsimp only at reserved
  split at reserved
  · cases reserved
  · split at reserved
    · cases reserved
    · split at reserved
      · cases reserved
      · cases reserved
        rfl

theorem asNew_free (freed : a.free r = .ok b) : b.asNew = a.asNew := by
  unfold free at freed
  split at freed <;> cases freed
  rfl

theorem asNew_write {data : Bytes} (written : a.write r data = .ok b) : b.asNew = a.asNew := by
  unfold write at written
  split at written
  · cases written
  · split at written <;> cases written
    rfl

end Arena

namespace Partition

/-- The partition as it was built. -/
def asNew (p : Partition) : Partition where
  arena := p.arena.asNew
  chains := p.chains.clear
  queue := .empty
  count := 0
  evictions := 0
  ceiling := p.ceiling

theorem asNew_congr {p q : Partition} (arena : q.arena.asNew = p.arena.asNew)
    (chains : q.chains.clear = p.chains.clear) (ceiling : q.ceiling = p.ceiling) : q.asNew = p.asNew := by
  rw [asNew, asNew, arena, chains, ceiling]

theorem asNew_new (buckets arenaBytes blockSize ceiling : Nat) :
    (new buckets arenaBytes blockSize ceiling).asNew = new buckets arenaBytes blockSize ceiling := rfl

/-- Once cleared, a partition is alike to the one that was built. -/
theorem alike_clear (p : Partition) (t : UInt64) : Alike t p.evictions p.clear p.asNew where
  arena := ⟨p.arena.tape, rfl⟩
  chains := .of_empty rfl rfl rfl
  queue := .empty
  count := rfl
  evictions := (Nat.zero_add _).symm
  ceiling := rfl

section Keeps

variable (p : Partition)

theorem asNew_clear : p.clear.asNew = p.asNew := rfl

theorem asNew_unlink (key : Key) : (p.unlink key).2.asNew = p.asNew := by
  unfold unlink
  cases p.chains.find? key with
  | none => rfl
  | some link =>
    dsimp only
    cases freed : p.arena.free link.region with
    | error e => rfl
    | ok arena => exact asNew_congr (Arena.asNew_free freed) rfl rfl

theorem asNew_evictOne (spared : Option Key) : (p.evictOne spared).2.asNew = p.asNew := by
  unfold evictOne
  cases p.victim? spared with
  | none => rfl
  | some entry =>
    have kept := p.asNew_unlink entry.2
    dsimp only
    generalize p.unlink entry.2 = unlinked at kept ⊢
    rcases unlinked with ⟨e | _ | _, q⟩ <;> exact kept

theorem asNew_allocEvicting (p : Partition) (size : Nat) : (p.allocEvicting size).2.asNew = p.asNew := by
  rw [allocEvicting_eq]
  rcases reserved : p.arena.alloc size with e | ⟨region, arena⟩
  · cases e with
    | outOfSpace requested available =>
      have kept := p.asNew_evictOne none
      rcases evicted : p.evictOne none with ⟨e | _ | key, q⟩
      all_goals rw [evicted] at kept
      · exact kept
      · exact kept
      · exact (asNew_allocEvicting q size).trans kept
    | _ => rfl
  · exact asNew_congr (Arena.asNew_alloc reserved) rfl rfl
termination_by p.chains.links.length
decreasing_by exact links_evictOne_lt evicted

theorem asNew_insert (key : Key) (encoded : Bytes) (stamp : UInt64) :
    (p.insert key encoded stamp).2.asNew = p.asNew := by
  have kept := p.asNew_allocEvicting encoded.length
  unfold insert
  generalize p.allocEvicting encoded.length = reserved at kept ⊢
  rcases reserved with ⟨e | region, q⟩
  · exact kept
  · dsimp only
    cases written : q.arena.write region encoded with
    | error e => exact kept
    | ok arena =>
      refine Eq.trans ?_ kept
      exact asNew_congr (p := q) (Arena.asNew_write written) rfl rfl

theorem asNew_enforceCeiling (p : Partition) (written : Key) : (p.enforceCeiling written).2.asNew = p.asNew := by
  rw [enforceCeiling_eq]
  split
  · have kept := p.asNew_evictOne (some written)
    rcases evicted : p.evictOne (some written) with ⟨e | _ | key, q⟩
    all_goals rw [evicted] at kept
    · exact kept
    · exact kept
    · exact (asNew_enforceCeiling q written).trans kept
  · rfl
termination_by p.chains.links.length
decreasing_by exact links_evictOne_lt evicted

theorem asNew_storeNew (key : Key) (encoded : Bytes) (stamp : UInt64) :
    (p.storeNew key encoded stamp).2.asNew = p.asNew := by
  have kept := p.asNew_insert key encoded stamp
  unfold storeNew
  generalize p.insert key encoded stamp = inserted at kept ⊢
  rcases inserted with ⟨e | _, q⟩
  · exact kept
  · exact (q.asNew_enforceCeiling key).trans kept

theorem asNew_remove (key : Key) : (p.remove key).2.asNew = p.asNew := by
  unfold remove
  rcases p.lookup key with e | _ | old
  · rfl
  · rfl
  · have kept := p.asNew_unlink key
    dsimp only
    generalize p.unlink key = unlinked at kept ⊢
    rcases unlinked with ⟨e | _, q⟩ <;> exact kept

theorem asNew_put (clocks : Clocks) (item : Item) : (p.put clocks item).2.1.asNew = p.asNew := by
  unfold put
  cases p.checkFits item.encodedLength with
  | error e => rfl
  | ok _ =>
    have kept := p.asNew_remove item.key
    dsimp only
    rw [clocks.commit_key]
    generalize p.remove item.key = removed at kept ⊢
    rcases removed with ⟨e | old, q⟩
    · exact kept
    · have stored := q.asNew_storeNew item.key (clocks.commit item).1.encode (clocks.commit item).2.1
      dsimp only
      generalize q.storeNew item.key (clocks.commit item).1.encode (clocks.commit item).2.1 = written at stored ⊢
      rcases written with ⟨e | _, r⟩ <;> exact stored.trans kept

theorem asNew_get (clocks : Clocks) (key : Key) (touch : Bool) : (p.get clocks key touch).2.1.asNew = p.asNew := by
  unfold get
  split
  · split <;> rfl
  · rfl

theorem asNew_putIfAbsent (clocks : Clocks) (item : Item) : (p.putIfAbsent clocks item).2.1.asNew = p.asNew := by
  have kept := p.asNew_put clocks item
  unfold putIfAbsent
  rcases p.lookup item.key with e | _ | present
  · rfl
  · dsimp only
    generalize p.put clocks item = written at kept ⊢
    rcases written with ⟨e | old, q, after⟩ <;> exact kept
  · rfl

theorem asNew_replaceIf (clocks : Clocks) (expected item : Item) :
    (p.replaceIf clocks expected item).2.1.asNew = p.asNew := by
  have kept := p.asNew_put clocks item
  unfold replaceIf
  rcases p.lookup item.key with e | current
  · rfl
  · dsimp only
    split
    · generalize p.put clocks item = written at kept ⊢
      rcases written with ⟨e | old, q, after⟩ <;> exact kept
    · rfl

theorem asNew_removeIf (expected : Item) : (p.removeIf expected).2.asNew = p.asNew := by
  unfold removeIf
  rcases p.lookup expected.key with e | current
  · rfl
  · dsimp only
    split
    · exact p.asNew_unlink expected.key
    · rfl

end Keeps

end Partition
end BlockCache

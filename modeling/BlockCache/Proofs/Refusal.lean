import BlockCache.Proofs.Index.Runs

/-!
# Refusals

The store fails for one reason only: an item is to be written that its arena could not hold if it were
empty. The error says how much was asked for and how much is free, and nothing has changed. So an item
that fits is stored however full or fragmented the arena is, and every other operation succeeds.
-/

namespace BlockCache

/-- On every partition that a run leads to. -/
theorem Partition.performs_run (buckets blockSize ceiling : Nat) {arenaBytes : Nat} (small : arenaBytes < 2 ^ 32)
    {ops : List Operation} {op : Operation}
    (few : ((new buckets arenaBytes blockSize ceiling).run {} (ops ++ [op])).2.stamps.issued < 2 ^ 64) :
    let p := ((new buckets arenaBytes blockSize ceiling).run {} ops).1
    let clocks := ((new buckets arenaBytes blockSize ceiling).run {} ops).2
    (∀ key, p.lookup key = .ok (p.view key)) ∧ p.Performs clocks op ∧
      p.size = if .close ∈ ops then 0 else (new buckets arenaBytes blockSize ceiling).size := by
  intro p clocks
  rw [run_concat] at few
  have sound := Sound.new buckets arenaBytes blockSize ceiling
  have small := Nat.lt_of_le_of_lt (size_new_le buckets arenaBytes blockSize ceiling) small
  have before : clocks.stamps.issued < UInt64.size := Nat.lt_of_le_of_lt (p.issued_le_perform clocks op) few
  obtain ⟨after, smallAfter⟩ : p.Sound clocks.stamps.issued ∧ p.size < UInt32.size := Sound.run sound small before
  exact ⟨after.lookup_eq, (after.perform smallAfter op few).2, Sound.size_run sound small before⟩

/-- On every index that a run leads to. -/
theorem Index.performs_run {s : StorageSettings} (small : s.partitionBytes < 2 ^ 32) {ops : List Operation} {op : Operation}
    (few : ((new s).run (ops ++ [op])).clocks.stamps.issued < 2 ^ 64) :
    let x := (new s).run ops
    (∀ key, (x.get key).1 = .ok (x.view key)) ∧ x.Performs op ∧ (∃ key y, x.evictOldest = (.ok key, y)) ∧
      (∃ y, x.enforceItemLimit = (.ok (), y)) ∧
      ∀ key, (x.home key).size = if .close ∈ ops then 0 else ((new s).home key).size := by
  intro x
  rw [run_concat] at few
  have sound := Sound.new s
  have small := small_new small
  have before : x.clocks.stamps.issued < UInt64.size := Nat.lt_of_le_of_lt (x.issued_le_perform op) few
  obtain ⟨after, smallAfter⟩ : x.Sound ∧ x.Small := sound.run small before
  refine ⟨after.get_answer, (after.perform smallAfter op few).2, ?_, ?_, sound.size_run small before⟩
  · rcases after.evictOldest with ⟨-, same⟩ | ⟨link, -, -, y, evicted, -⟩
    · exact ⟨none, x, same⟩
    · exact ⟨some link.key, y, evicted⟩
  · obtain ⟨-, y, -, limited, -⟩ := after.enforceItemLimit
    exact ⟨y, limited⟩

/-- On every partition and every index that a run leads to, an operation fails exactly if it has an item
to write that is larger than the arena, the error says so, and nothing has changed. Arenas are smaller than
4 GiB and fewer than 2^64 stamps are drawn. -/
theorem fails_only_for_space :
    (∀ (buckets arenaBytes blockSize ceiling : Nat) (ops : List Partition.Operation) (op : Partition.Operation),
      arenaBytes < 2 ^ 32 →
      ((Partition.new buckets arenaBytes blockSize ceiling).run {} (ops ++ [op])).2.stamps.issued < 2 ^ 64 →
      let p := ((Partition.new buckets arenaBytes blockSize ceiling).run {} ops).1
      let clocks := ((Partition.new buckets arenaBytes blockSize ceiling).run {} ops).2
      (∀ key, p.lookup key = .ok (p.view key)) ∧ p.Performs clocks op ∧
        p.size = if .close ∈ ops then 0 else (Partition.new buckets arenaBytes blockSize ceiling).size) ∧
    (∀ (s : StorageSettings) (ops : List Index.Operation) (op : Index.Operation), s.partitionBytes < 2 ^ 32 →
      ((Index.new s).run (ops ++ [op])).clocks.stamps.issued < 2 ^ 64 →
      let x := (Index.new s).run ops
      (∀ key, (x.get key).1 = .ok (x.view key)) ∧ x.Performs op ∧ (∃ key y, x.evictOldest = (.ok key, y)) ∧
        (∃ y, x.enforceItemLimit = (.ok (), y)) ∧
        ∀ key, (x.home key).size = if .close ∈ ops then 0 else ((Index.new s).home key).size) :=
  ⟨fun buckets _ blockSize ceiling _ _ small few => Partition.performs_run buckets blockSize ceiling small few,
    fun _ _ _ small few => Index.performs_run small few⟩

/-- A partition of 64 bytes refuses an item of 101, and a read of an index is answered. -/
theorem fails_only_for_space_large :
    (Partition.new 1 64 16 0).perform {} (.put { key := ⟨[97]⟩, data := List.replicate 64 0 }) =
        (.error (.outOfSpace 101 64), Partition.new 1 64 16 0, {}) ∧
      ((Index.new {}).perform (.get ⟨[97]⟩)).1 = .ok (.item ((Index.new {}).view ⟨[97]⟩)) :=
  ⟨(fails_only_for_space.1 1 64 16 0 [] (.put { key := ⟨[97]⟩, data := List.replicate 64 0 }) (by decide)
      (Nat.lt_of_le_of_lt (Partition.run_issued_le _ _ _) (by decide))).2.1.refused _ rfl,
    (fails_only_for_space.2 {} [] (.get ⟨[97]⟩) (by decide)
      (Nat.lt_of_le_of_lt (Index.run_issued_le _ _) (by decide))).2.1.accepted rfl⟩

end BlockCache

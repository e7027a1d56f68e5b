import BlockCache.Proofs.Partition.Runs
import Mathlib.Algebra.BigOperators.Ring.List
import Mathlib.Algebra.Ring.Nat
import Mathlib.Data.List.Dedup

/-!
# Consistency

What the three structures of a partition have to do with each other, said of the chains, the queue and the
arena themselves. A sound partition is consistent, so every partition that any run leads to is.
-/

open scoped List

namespace BlockCache.Partition

/-- Chains, queue and arena of a partition tell the same story. -/
structure Consistent (p : Partition) : Prop where
  /-- No key has two links in all buckets together. -/
  unique : (p.chains.links.map (·.key)).Nodup
  placed : ∀ (bucket : Nat) (chain : List Link), p.chains.buckets[bucket]? = some chain →
    ∀ link ∈ chain, bucket = p.chains.bucketOf link.key
  count : p.count = p.chains.links.length
  distinct : p.count = p.keys.dedup.length
  /-- The queue names a key by the stamp of the key's link. -/
  queued : ∀ stamp key, p.queue.get? stamp = some key ↔ ∃ link, p.chains.find? key = some link ∧ link.stamp = stamp
  bijective : p.queue.toList ~ p.chains.links.map fun link => (link.stamp, link.key)
  live : ∀ link ∈ p.chains.links, p.arena.fault? link.region = none
  disjoint : p.chains.links.Pairwise fun a b =>
    a.region.start.toNat + a.region.blocks.toNat ≤ b.region.start.toNat ∨
      b.region.start.toNat + b.region.blocks.toNat ≤ a.region.start.toNat
  covered : ∀ block, p.arena.used.isUsed block = true ↔ ∃ link ∈ p.chains.links,
    link.region.start.toNat ≤ block ∧ block < link.region.start.toNat + link.region.blocks.toNat
  /-- The bytes in use are the lengths of the stored values, each rounded up to whole blocks. -/
  accounted : p.usedBytes = (p.chains.links.map fun link =>
    (link.region.length.toNat + p.arena.blockSize - 1) / p.arena.blockSize * p.arena.blockSize).sum
  /-- The region of a link has the bytes of an item of the link's key, and is as long as they are. -/
  decoded : ∀ link ∈ p.chains.links, ∃ bytes item, p.arena.get link.region = .ok bytes ∧
    Item.decode link.key bytes = .ok item ∧ item.key = link.key ∧ item.encodedLength = link.region.length.toNat

namespace Sound

variable {p : Partition} {drawn : Nat}

theorem toList_queue_perm (sound : p.Sound drawn) :
    p.queue.toList ~ p.chains.links.map fun link => (link.stamp, link.key) := by
  refine (List.perm_ext_iff_of_nodup ?_ ?_).2 fun entry => ?_
  · have keys : (p.queue.byStamp.toList.map (·.1)).Nodup := by
      rw [Std.TreeMap.map_fst_toList_eq_keys]
      exact Std.TreeMap.nodup_keys
    exact keys.of_map
  · have named : ((p.chains.links.map fun link => (link.stamp, link.key)).map (·.2)).Nodup := by
      rw [List.map_map]
      exact sound.chains.unique
    exact named.of_map
  · obtain ⟨stamp, key⟩ := entry
    rw [Queue.mem_toList, sound.queued, List.mem_map]
    simp only [Prod.mk.injEq]

/-- The live blocks are those of the links' regions. -/
theorem covers_iff (sound : p.Sound drawn) (block : Nat) : p.arena.Covers block ↔ ∃ link ∈ p.chains.links,
    link.region.start.toNat ≤ block ∧ block < link.region.start.toNat + link.region.blocks.toNat := by
  constructor
  · rintro ⟨start, n, live, bounds⟩
    have mem := sound.runs.subset (Std.TreeMap.mem_toList_iff_getElem?_eq_some.2 live)
    obtain ⟨link, held, same⟩ := List.mem_map.1 mem
    obtain ⟨rfl, rfl⟩ := Prod.mk.inj same
    exact ⟨link, held, bounds⟩
  · rintro ⟨link, mem, bounds⟩
    exact ⟨_, _, sound.live mem, bounds⟩

theorem disjoint (sound : p.Sound drawn) : p.chains.links.Pairwise fun a b =>
    a.region.start.toNat + a.region.blocks.toNat ≤ b.region.start.toNat ∨
      b.region.start.toNat + b.region.blocks.toNat ≤ a.region.start.toNat := by
  refine sound.chains.unique.of_map.pairwise_of_forall_ne fun a memA b memB ne => ?_
  have starts := sound.start_ne memA memB fun same => ne (List.inj_on_of_nodup_map sound.chains.unique memA memB same)
  rcases Nat.lt_or_gt_of_ne fun same => starts (UInt32.toNat_inj.1 same) with before | behind
  · exact .inl (sound.arena.apart (sound.live memA) (sound.live memB) before)
  · exact .inr (sound.arena.apart (sound.live memB) (sound.live memA) behind)

theorem blocks_eq (sound : p.Sound drawn) {link : Link} (mem : link ∈ p.chains.links) :
    link.region.blocks.toNat = (link.region.length.toNat + p.arena.blockSize - 1) / p.arena.blockSize := by
  obtain ⟨item, holds⟩ := sound.stored link mem
  have positive := item.encodedLength_pos
  have := p.arena.blockSize_pos
  rw [holds.blocks, holds.length, Arena.blocksFor, Nat.max_eq_left]
  exact (Nat.le_div_iff_mul_le this).2 (by omega)

theorem usedBytes_eq (sound : p.Sound drawn) : p.usedBytes = (p.chains.links.map fun link =>
    (link.region.length.toNat + p.arena.blockSize - 1) / p.arena.blockSize * p.arena.blockSize).sum := by
  have live : p.arena.liveBlocks = (p.chains.links.map fun link => link.region.blocks.toNat).sum := by
    have := (sound.runs.map fun entry : Nat × UInt32 => entry.2.toNat).sum_eq
    rw [List.map_map] at this
    exact this
  have blocks : (p.chains.links.map fun link => link.region.blocks.toNat) = p.chains.links.map fun link =>
      (link.region.length.toNat + p.arena.blockSize - 1) / p.arena.blockSize :=
    List.map_congr_left fun link mem => sound.blocks_eq mem
  have balance := sound.arena.balance
  calc p.usedBytes
    _ = p.arena.liveBlocks * p.arena.blockSize := by
      rw [usedBytes, Arena.usedBytes]
      congr 1
      omega
    _ = _ := by rw [live, blocks, List.sum_map_mul_right]

theorem consistent (sound : p.Sound drawn) : p.Consistent where
  unique := sound.chains.unique
  placed _ _ held link mem := (sound.chains.placed held link mem).symm
  count := sound.count
  distinct := by
    rw [keys, List.Nodup.dedup sound.chains.unique, List.length_map]
    exact sound.count
  queued stamp key := by
    rw [sound.queued]
    simp only [sound.chains.find?_eq_some_iff]
    constructor
    · rintro ⟨link, mem, stamped, keyed⟩
      exact ⟨link, ⟨mem, keyed⟩, stamped⟩
    · rintro ⟨link, ⟨mem, keyed⟩, stamped⟩
      exact ⟨link, mem, stamped, keyed⟩
  bijective := sound.toList_queue_perm
  live _ mem := sound.arena.fault?_eq_none_iff.2 (sound.owns mem)
  disjoint := sound.disjoint
  covered block := (sound.arena.used_iff block).trans (sound.covers_iff block)
  accounted := sound.usedBytes_eq
  decoded link mem := by
    obtain ⟨item, holds⟩ := sound.stored link mem
    exact ⟨_, { item with key := link.key }, holds.bytes, item.decode_encode link.key, rfl, holds.length.symm⟩

end Sound

/-- Every run of operations on a new partition ends in a consistent one, if fewer than 2^64 stamps
are drawn and the arena has less than 4 GiB. -/
theorem consistent_run (buckets blockSize ceiling : Nat) {arenaBytes : Nat} (small : arenaBytes < 2 ^ 32)
    {ops : List Operation}
    (few : ((new buckets arenaBytes blockSize ceiling).run {} ops).2.stamps.issued < 2 ^ 64) :
    ((new buckets arenaBytes blockSize ceiling).run {} ops).1.Consistent :=
  have small := Nat.lt_of_le_of_lt (size_new_le buckets arenaBytes blockSize ceiling) small
  (Sound.run (Sound.new buckets arenaBytes blockSize ceiling) small few).1.consistent

theorem consistent_run_overwrite :
    ((new 4 1024 64 0).run {} [.put ⟨⟨[97]⟩, 0, 0, 0, [1, 2, 3], 0, false, 0⟩, .get ⟨[97]⟩ true,
      .put ⟨⟨[97]⟩, 0, 0, 0, [4], 0, false, 0⟩, .evictOldest]).1.Consistent :=
  consistent_run 4 64 0 (by decide) (Nat.lt_of_le_of_lt (run_issued_le _ _ _) (by decide))

end BlockCache.Partition

import BlockCache.Index
import BlockCache.Proofs.Partition.Displacement

/-!
# Room for the ceiling

Settings are accepted only if the ceiling is below the bytes of a partition. But the arena of a partition has whole
blocks only, and what is left over of its last block belongs to no arena: a ceiling in the left-over part is accepted,
and cannot be met even by an empty partition. Every other ceiling is met by an empty partition. A write then keeps
other entries wherever its own blocks leave room for the ceiling, and keeps none where they do not.
-/

open scoped List

namespace BlockCache

namespace Partition

/-- A partition is laid out as the settings say. -/
structure LaidOut (p : Partition) (s : StorageSettings) : Prop where
  buckets : p.chains.count = s.bucketsPerPartition
  blockSize : p.arena.blockSize = s.blockSize
  blocks : p.arena.totalBlocks = s.partitionBytes / s.blockSize
  nonempty : 0 < p.arena.totalBlocks
  /-- The arena has the bytes of the partition but for those left over of the last block. -/
  size : p.size + s.partitionBytes % s.blockSize = s.partitionBytes
  ceiling : p.ceiling = s.ceilingBytes
  below : s.ceilingBytes < s.partitionBytes
  /-- Where nothing is left over, the ceiling is below the size of the arena. -/
  whole : s.blockSize ∣ s.partitionBytes → p.ceiling < p.size
  empty : p.count = 0

/-- What the ceiling comes to for a partition into which an item is put. -/
structure Ceils (p : Partition) (clocks : Clocks) (item : Item) : Prop where
  empty : p.count = 0 → p.freeBytes = p.size
  /-- An item whose blocks leave room for the ceiling leaves that many bytes free. -/
  restored : p.arena.blocksFor item.encodedLength * p.arena.blockSize + p.ceiling ≤ p.size →
    ∃ q, p.put clocks item = (.ok (p.view item.key), q, (clocks.commit item).2.2) ∧ q.ceiling ≤ q.freeBytes
  /-- Every other item that fits stays alone. -/
  alone : p.size < p.arena.blocksFor item.encodedLength * p.arena.blockSize + p.ceiling → item.encodedLength ≤ p.size →
    ∃ q, p.put clocks item = (.ok (p.view item.key), q, (clocks.commit item).2.2) ∧ q.keys = [item.key]

end Partition

namespace Arena

theorem bytesBeside_singleton (a : Arena) (link : Link) :
    a.bytesBeside [link] = a.size - link.region.blocks.toNat * a.blockSize := by
  rw [bytesBeside, size, Nat.sub_mul, List.map_singleton, List.sum_singleton]

end Arena

namespace Partition.Sound

variable {p : Partition} {drawn : Nat}

theorem freeBytes_of_empty (sound : p.Sound drawn) (empty : p.count = 0) : p.freeBytes = p.size := by
  have none := List.length_eq_zero_iff.1 (sound.count.symm.trans empty)
  rw [sound.freeBytes_eq, none]
  rfl

/-- An entry that shares its partition with entries of its own key only is alone. -/
theorem links_eq_singleton (sound : p.Sound drawn) {entry : Link} (mem : entry ∈ p.chains.links)
    (keyed : ∀ link ∈ p.chains.links, link.key = entry.key) : p.chains.links = [entry] := by
  have all (link : Link) (there : link ∈ p.chains.links) : link = entry :=
    List.inj_on_of_nodup_map sound.chains.unique there mem (keyed link there)
  refine List.perm_singleton.1 ((List.perm_ext_iff_of_nodup sound.nodup_links (List.nodup_singleton entry)).2 fun link => ?_)
  rw [List.mem_singleton]
  exact ⟨all link, fun same => same ▸ mem⟩

section Writing

variable {clocks : Clocks} {item : Item} (sound : p.Sound clocks.stamps.issued)
  (few : (p.put clocks item).2.2.stamps.issued < UInt64.size)

include sound few

/-- A write leaves the ceiling free, or nothing but its own entry. -/
theorem put_free_or_alone (fits : item.encodedLength ≤ p.size) (short : item.encodedLength < UInt32.size) :
    ∃ entry q, p.put clocks item = (.ok (p.view item.key), q, (clocks.commit item).2.2) ∧ entry.key = item.key ∧
      entry ∈ q.chains.links ∧ q.ceiling = p.ceiling ∧ q.freeBytes = q.arena.bytesBeside q.chains.links ∧
      q.arena.bytesBeside [entry] + p.arena.blocksFor item.encodedLength * p.arena.blockSize = p.size ∧
      (q.ceiling ≤ q.freeBytes ∨ q.chains.links = [entry]) := by
  obtain ⟨entry, first, second, q, displaces, -, stored, after, writes, links, stop⟩ := sound.put_displaces fits short few
  have mem : entry ∈ q.chains.links := links.symm.subset (List.mem_cons_self ..)
  refine ⟨entry, q, stored, displaces.keyed, mem, writes.ceiling, after.freeBytes_eq, ?_, ?_⟩
  · have size : q.arena.size = p.size := writes.size
    have inside := Nat.mul_le_mul_right p.arena.blockSize
      (Arena.blocksFor_le_totalBlocks item.encodedLength_pos fits)
    rw [Arena.bytesBeside_singleton, displaces.blocks, size, writes.blockSize]
    exact Nat.sub_add_cancel inside
  · refine stop.imp_right fun keyed => after.links_eq_singleton mem fun link there => ?_
    rw [keyed link there, displaces.keyed]

theorem ceils (short : item.encodedLength ≤ p.size → item.encodedLength < UInt32.size) : p.Ceils clocks item where
  empty := sound.freeBytes_of_empty
  restored leaves := by
    have fits : item.encodedLength ≤ p.size :=
      Nat.le_trans (p.arena.le_blocksFor_mul _) (Nat.le_trans (Nat.le_add_right ..) leaves)
    obtain ⟨entry, q, stored, -, -, ceiling, free, beside, stop⟩ := sound.put_free_or_alone few fits (short fits)
    refine ⟨q, stored, ?_⟩
    rcases stop with enough | alone
    · exact enough
    · rw [free, alone, ceiling]
      omega
  alone exceeds fits := by
    obtain ⟨entry, q, stored, keyed, mem, ceiling, free, beside, stop⟩ := sound.put_free_or_alone few fits (short fits)
    refine ⟨q, stored, ?_⟩
    rcases stop with enough | alone
    · have most : q.arena.bytesBeside q.chains.links ≤ q.arena.bytesBeside [entry] :=
        Arena.bytesBeside_le (List.singleton_subperm_iff.2 mem)
      omega
    · rw [Partition.keys, alone, List.map_singleton, keyed]

end Writing

end Partition.Sound

namespace StorageSettings

variable {s : StorageSettings}

/-- What settings have that are accepted for arenas. -/
structure Accepted (s : StorageSettings) : Prop where
  buckets : s.bucketsPerPartition.nextPowerOfTwo = s.bucketsPerPartition
  blockSize : 0 < s.blockSize
  block : s.blockSize ≤ s.partitionBytes
  blocks : s.partitionBytes / s.blockSize < UInt32.size
  ceiling : s.ceilingBytes < s.partitionBytes

theorem accepted_of_validate (accepted : s.validate = .ok ()) (arenas : s.backend = .block) : s.Accepted := by
  rw [validate, arenas] at accepted
  split_ifs at accepted with _ _ memory buckets blockSize block blocks ceiling
  · cases memory
  · exact ⟨not_not.1 buckets, Nat.pos_of_ne_zero blockSize, Nat.not_lt.1 block, Nat.not_le.1 blocks, Nat.not_le.1 ceiling⟩

end StorageSettings

namespace Index

theorem eq_new_of_mem {s : StorageSettings} {p : Partition} (mem : p ∈ (new s).partitions) :
    p = .new s.bucketsPerPartition s.partitionBytes s.blockSize s.ceilingBytes :=
  (Array.mem_replicate.1 mem).2

theorem laidOut_new {s : StorageSettings} (accepted : s.Accepted) {p : Partition} (mem : p ∈ (new s).partitions) :
    p.LaidOut s := by
  obtain rfl := eq_new_of_mem mem
  have positive := accepted.blockSize
  have blockSize : max s.blockSize 1 = s.blockSize := Nat.max_eq_left positive
  have blocks : min (s.partitionBytes / max s.blockSize 1) Arena.maxBlocks = s.partitionBytes / s.blockSize := by
    rw [blockSize]
    exact Nat.min_eq_left (Nat.le_sub_one_of_lt accepted.blocks)
  have size : (Partition.new s.bucketsPerPartition s.partitionBytes s.blockSize s.ceilingBytes).size +
      s.partitionBytes % s.blockSize = s.partitionBytes := by
    have bytes : (Partition.new s.bucketsPerPartition s.partitionBytes s.blockSize s.ceilingBytes).size =
        s.partitionBytes / s.blockSize * s.blockSize := congrArg₂ (· * ·) blocks blockSize
    rw [bytes]
    exact Nat.div_add_mod' ..
  exact {
    buckets := accepted.buckets
    blockSize := blockSize
    blocks := blocks
    nonempty := lt_of_lt_of_eq (Nat.div_pos accepted.block positive) blocks.symm
    size := size
    ceiling := rfl
    below := accepted.ceiling
    whole := fun divides => by
      rw [Nat.mod_eq_zero_of_dvd divides, Nat.add_zero] at size
      rw [size]
      exact accepted.ceiling
    empty := rfl }

/-- Accepted settings lay every partition out as they say, with a ceiling below the size of its arena unless the ceiling
lies in the bytes left over of the last block. Whatever happens to the partition, it keeps its size and ceiling, all of it
is free when it is empty, and a write keeps other entries exactly where its blocks leave room for the ceiling. -/
theorem ceiling_new {s : StorageSettings} (accepted : s.validate = .ok ()) (arenas : s.backend = .block) {p : Partition}
    (mem : p ∈ (new s).partitions) :
    p.LaidOut s ∧ ∀ (ops : List Partition.Operation) (item : Item),
      Partition.Describable p.size (ops ++ [.put item]) →
      (p.run {} (ops ++ [.put item])).2.stamps.issued < UInt64.size →
      p.KeepsShape (.close ∈ ops) (p.run {} ops).1 ∧ (p.run {} ops).1.Ceils (p.run {} ops).2 item := by
  refine ⟨laidOut_new (StorageSettings.accepted_of_validate accepted arenas) mem, fun ops item short few => ?_⟩
  obtain rfl := eq_new_of_mem mem
  have sound := Partition.Sound.new s.bucketsPerPartition s.partitionBytes s.blockSize s.ceilingBytes
  rw [Partition.run_concat] at few
  have before := Nat.lt_of_le_of_lt (Partition.issued_le_perform _ _ (.put item)) few
  have first : Partition.Describable _ ops := fun op there => short op (List.mem_append_left _ there)
  obtain ⟨after, shape⟩ := sound.run_of_describable (Nat.le_refl _) first before
  refine ⟨shape, after.ceils few fun fits => ?_⟩
  refine short (.put item) (List.mem_append_right _ (List.mem_singleton_self _)) item rfl (Nat.le_trans fits ?_)
  rw [shape.size]
  split
  · exact Nat.zero_le _
  · exact Nat.le_refl _

theorem ceiling_new_three_blocks :
    let s : StorageSettings :=
      { partitions := 1, bucketsPerPartition := 16, blockSize := 64, maxBytes := 192, ceilingBytes := 128 }
    s.validate = .ok () ∧ s.backend = .block ∧ ∃ p ∈ (new s).partitions,
      p.LaidOut s ∧ (p.run {} []).1.Ceils (p.run {} []).2 { key := ⟨[97]⟩, data := [1] } := by
  intro s
  have accepted : s.validate = .ok () := by decide +kernel
  have mem : .new s.bucketsPerPartition s.partitionBytes s.blockSize s.ceilingBytes ∈ (new s).partitions :=
    Array.mem_replicate.2 ⟨by decide, rfl⟩
  obtain ⟨laidOut, run⟩ := ceiling_new accepted rfl mem
  refine ⟨accepted, rfl, _, mem, laidOut, (run [] _ (Partition.describable_of_small (by decide)) ?_).2⟩
  exact Nat.lt_of_le_of_lt (Partition.run_issued_le _ _ _) (by decide)

/-- A ceiling of 150 bytes is accepted for a partition of 191 bytes, which has room for two blocks of 64 bytes. -/
theorem ceiling_above_arena :
    let s : StorageSettings :=
      { partitions := 1, bucketsPerPartition := 16, blockSize := 64, maxBytes := 191, ceilingBytes := 150 }
    s.validate = .ok () ∧ s.backend = .block ∧
      ∃ p ∈ (new s).partitions, p.count = 0 ∧ p.size = 128 ∧ p.freeBytes < p.ceiling := by
  intro s
  have mem : .new s.bucketsPerPartition s.partitionBytes s.blockSize s.ceilingBytes ∈ (new s).partitions :=
    Array.mem_replicate.2 ⟨by decide, rfl⟩
  exact ⟨by decide +kernel, rfl, _, mem, rfl, by decide, by decide⟩

end Index
end BlockCache

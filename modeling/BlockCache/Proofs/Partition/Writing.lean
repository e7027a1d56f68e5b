import BlockCache.Proofs.Partition.Eviction

/-!
# Writing

A write takes the old entry of its key out, evicts until there is room, adds the new entry, and evicts
others until the ceiling is met. It is refused only if the item is larger than the arena, and then
nothing changes. `Writes` is what a write does to the partition as a map: the key holds the item, other
keys hold what they held or were evicted, and evictions are counted.
-/

open scoped List

namespace BlockCache

theorem Item.encodedLength_pos (i : Item) : 0 < i.encodedLength := by
  rw [encodedLength, headerLength]; omega

namespace Partition

/-- `q` is `p` with an entry for an item whose key had none. -/
structure Adds (p : Partition) (item : Item) (stamp : UInt64) (q : Partition) : Prop where
  room : ∃ r a, p.arena.alloc item.encodedLength = .ok (r, a)
  links : ∃ region, q.chains.links ~ ⟨item.key, region, stamp⟩ :: p.chains.links
  view : ∀ key, q.view key = if key = item.key then some item else p.view key
  count : q.count = p.count + 1
  evictions : q.evictions = p.evictions
  blockSize : q.arena.blockSize = p.arena.blockSize
  totalBlocks : q.arena.totalBlocks = p.arena.totalBlocks
  closed : q.arena.closed = p.arena.closed
  ceiling : q.ceiling = p.ceiling

/-- The partition with an entry for an item, the bytes of which are written to a region of `a`. -/
def withEntry (p : Partition) (item : Item) (stamp : UInt64) (r : Region) (a : Arena) : Partition :=
  { p with
    arena := { a with tape := a.tape.write (a.address r) item.encode }
    chains := p.chains.push ⟨item.key, r, stamp⟩
    count := p.count + 1
    queue := p.queue.push stamp item.key }

namespace Sound

section Adding

variable {p : Partition} {drawn : Nat} (sound : p.Sound drawn) {item : Item} (short : item.encodedLength < UInt32.size)
  {r : Region} {a : Arena} (reserved : p.arena.alloc item.encodedLength = .ok (r, a))

theorem mem_links_withEntry {stamp : UInt64} {link : Link} : link ∈ (p.withEntry item stamp r a).chains.links ↔
    link = ⟨item.key, r, stamp⟩ ∨ link ∈ p.chains.links := by
  have links : (p.withEntry item stamp r a).chains.links ~ ⟨item.key, r, stamp⟩ :: p.chains.links :=
    p.chains.links_push_perm _
  rw [links.mem_iff, List.mem_cons]

include sound short reserved

/-- The region reserved for an item may be used, for as many bytes as the item has: lengths of regions are
32-bit words, and this one fits. -/
theorem owns_of_alloc : a.Owns r ∧ item.encode.length = r.length.toNat := by
  obtain ⟨-, reserves⟩ := sound.arena.alloc reserved
  refine ⟨reserves.owns, item.length_encode.trans ?_⟩
  rw [reserves.length_eq, Nat.mod_eq_of_lt short]

theorem write_of_alloc :
    a.write r item.encode = .ok { a with tape := a.tape.write (a.address r) item.encode } := by
  obtain ⟨arena, -⟩ := sound.arena.alloc reserved
  obtain ⟨owns, encoded⟩ := sound.owns_of_alloc short reserved
  exact arena.write_eq owns encoded

/-- The new link holds the item. -/
theorem holds_withEntry (stamp : UInt64) : (p.withEntry item stamp r a).Holds ⟨item.key, r, stamp⟩ item := by
  obtain ⟨arena, reserves⟩ := sound.arena.alloc reserved
  obtain ⟨owns, encoded⟩ := sound.owns_of_alloc short reserved
  constructor
  · rfl
  · exact arena.get_write owns encoded
  · exact encoded.symm.trans item.length_encode
  · exact reserves.blocks.trans (Arena.blocksFor_congr reserves.blockSize _).symm

/-- The other links hold what they held: the new region is none of theirs. -/
theorem holds_withEntry_of_mem (stamp : UInt64) {link : Link} (mem : link ∈ p.chains.links) {held : Item}
    (holds : p.Holds link held) : (p.withEntry item stamp r a).Holds link held := by
  obtain ⟨arena, reserves⟩ := sound.arena.alloc reserved
  obtain ⟨owns, encoded⟩ := sound.owns_of_alloc short reserved
  have ne : link.region.start ≠ r.start := by
    intro same
    have live := sound.live mem
    rw [same, reserves.absent] at live
    cases live
  have live : a.heads[link.region.start.toNat]? = some link.region.blocks := by
    rw [reserves.heads, Std.TreeMap.getElem?_insert, if_neg, sound.live mem]
    rw [Nat.compare_eq_eq]
    exact fun same => ne (UInt32.toNat_inj.1 same.symm)
  have ownsLink : a.Owns link.region := ⟨live, by rw [reserves.blockSize]; exact (sound.owns mem).fits⟩
  constructor
  · exact holds.key
  · exact (arena.get_write_other owns ownsLink ne encoded).trans
      (sound.holds_of_tape_eq holds mem arena live reserves.tape reserves.blockSize)
  · exact holds.length
  · exact holds.blocks.trans (Arena.blocksFor_congr reserves.blockSize _).symm

variable (absent : p.view item.key = none) {stamp : UInt64} (fresh : drawn < stamp.toNat)

include absent fresh

theorem withEntry : (p.withEntry item stamp r a).Sound stamp.toNat := by
  obtain ⟨arena, reserves⟩ := sound.arena.alloc reserved
  have links : (p.withEntry item stamp r a).chains.links ~ ⟨item.key, r, stamp⟩ :: p.chains.links :=
    p.chains.links_push_perm _
  constructor
  · exact arena.withTape _
  · exact sound.chains.push (sound.view_eq_none_iff.1 absent)
  · rw [links.length_eq, List.length_cons, ← sound.count]
    rfl
  · refine sound.queued.push ⟨item.key, r, stamp⟩ (fun other mem same => ?_) links
    have older := sound.stamps other mem
    rw [same] at older
    exact absurd fresh (Nat.not_lt.2 older)
  · intro link mem
    rcases mem_links_withEntry.1 mem with rfl | old
    · exact Nat.le_refl _
    · exact Nat.le_of_lt (Nat.lt_of_le_of_lt (sound.stamps link old) fresh)
  · have runs := Entries.toList_insert p.arena.heads r.start.toNat r.blocks
    rw [Entries.toList_erase_of_absent reserves.absent, ← reserves.heads] at runs
    exact runs.trans ((sound.runs.cons _).trans (links.map fun link : Link => link.region.run).symm)
  · intro link mem
    rcases mem_links_withEntry.1 mem with rfl | old
    · exact ⟨item, sound.holds_withEntry short reserved stamp⟩
    · obtain ⟨held, holds⟩ := sound.stored link old
      exact ⟨held, sound.holds_withEntry_of_mem short reserved stamp old holds⟩

theorem view_withEntry (key : Key) :
    (p.withEntry item stamp r a).view key = if key = item.key then some item else p.view key := by
  have after := sound.withEntry short reserved absent fresh
  split
  · rename_i same
    exact after.view_eq_some_iff.2
      ⟨_, mem_links_withEntry.2 (.inl rfl), same.symm, sound.holds_withEntry short reserved stamp⟩
  · rename_i other
    refine sound.view_eq_of_links after (fun link mem same => ?_) fun link mem same => ?_
    · exact ⟨link, mem_links_withEntry.2 (.inr mem), same,
        fun held => sound.holds_withEntry_of_mem short reserved stamp mem⟩
    · rcases mem_links_withEntry.1 mem with rfl | old
      · exact absurd same.symm other
      · exact ⟨link, old, same⟩

/-- The entry added by a push and a write of its bytes into the run reserved for it. -/
theorem adds : p.Adds item stamp (p.withEntry item stamp r a) := by
  obtain ⟨-, reserves⟩ := sound.arena.alloc reserved
  constructor
  · exact ⟨r, a, reserved⟩
  · exact ⟨r, p.chains.links_push_perm _⟩
  · exact sound.view_withEntry short reserved absent fresh
  · rfl
  · rfl
  · exact reserves.blockSize
  · exact reserves.totalBlocks
  · exact reserves.closed
  · rfl

end Adding

end Sound

/-- Inserting an item under a key that has no entry makes room for it and adds it. -/
theorem Sound.insert {p : Partition} {drawn : Nat} (sound : p.Sound drawn) {item : Item}
    (absent : p.view item.key = none) (fits : item.encodedLength ≤ p.arena.size)
    (short : item.encodedLength < UInt32.size) {stamp : UInt64} (fresh : drawn < stamp.toNat) :
    ∃ gone room q, Evicting none (fun p => p.arena.alloc item.encodedLength =
        .error (.outOfSpace item.encodedLength p.arena.freeBytes)) p gone room ∧
      room.Adds item stamp q ∧ q.Sound stamp.toNat ∧ p.insert item.key item.encode stamp = (.ok (), q) := by
  obtain ⟨gone, room, r, a, run, reserved, found⟩ := sound.allocEvicting item.encodedLength_pos fits
  obtain ⟨after, without, -⟩ := sound.evicting run
  have still : room.view item.key = none := by rw [without.view, absent, ite_self]
  refine ⟨gone, room, room.withEntry item stamp r a, run, after.adds short reserved still fresh,
    after.withEntry short reserved still fresh, ?_⟩
  rw [Partition.insert, item.length_encode, found]
  dsimp only
  rw [after.write_of_alloc short reserved]
  rfl

/-- Storing an item under a key that has no entry inserts it and then evicts others for the ceiling. -/
theorem Sound.storeNew {p : Partition} {drawn : Nat} (sound : p.Sound drawn) {item : Item}
    (absent : p.view item.key = none) (fits : item.encodedLength ≤ p.arena.size)
    (short : item.encodedLength < UInt32.size) {stamp : UInt64} (fresh : drawn < stamp.toNat) :
    ∃ first room full second q, Evicting none (fun p => p.arena.alloc item.encodedLength =
        .error (.outOfSpace item.encodedLength p.arena.freeBytes)) p first room ∧
      room.Adds item stamp full ∧ full.Sound stamp.toNat ∧
      Evicting (some item.key) (fun p => p.arena.freeBytes < p.ceiling) full second q ∧
      (q.ceiling ≤ q.arena.freeBytes ∨ ∀ link ∈ q.chains.links, link.key = item.key) ∧
      p.storeNew item.key item.encode stamp = (.ok (), q) := by
  obtain ⟨first, room, full, run, adds, stored, inserted⟩ := sound.insert absent fits short fresh
  obtain ⟨second, q, evictions, enforced, stop⟩ := stored.enforceCeiling item.key
  refine ⟨first, room, full, second, q, run, adds, stored, evictions, stop, ?_⟩
  rw [Partition.storeNew, inserted]
  exact enforced

/-- `q` is `p` after a write of `item`, which evicted `gone`. -/
structure Writes (p : Partition) (item : Item) (stamp : UInt64) (gone : List Key) (q : Partition) : Prop where
  view : ∀ key, q.view key = if key = item.key then some item else if key ∈ gone then none else p.view key
  spared : item.key ∉ gone
  stored : ∀ key ∈ gone, p.view key ≠ none
  nodup : gone.Nodup
  links : ∀ link ∈ q.chains.links, link ∈ p.chains.links ∧ link.key ≠ item.key ∨ link.key = item.key ∧ link.stamp = stamp
  count : q.count + gone.length + (p.view item.key).toList.length = p.count + 1
  evictions : q.evictions = p.evictions + gone.length
  blockSize : q.arena.blockSize = p.arena.blockSize
  totalBlocks : q.arena.totalBlocks = p.arena.totalBlocks
  closed : q.arena.closed = p.arena.closed
  ceiling : q.ceiling = p.ceiling

theorem Writes.size {p q : Partition} {item : Item} {stamp : UInt64} {gone : List Key}
    (writes : p.Writes item stamp gone q) : q.arena.size = p.arena.size := by
  rw [Arena.size, Arena.size, writes.blockSize, writes.totalBlocks]

/-- An item added between two runs of evictions, the second of which spares it, is written. -/
theorem Sound.writes_of_runs {p room full q : Partition} {drawn : Nat} (sound : p.Sound drawn) {item : Item}
    (absent : p.view item.key = none) {stamp : UInt64} {first second : List Key} {needs wants : Partition → Prop}
    (making : Evicting none needs p first room) (adds : room.Adds item stamp full) (stored : full.Sound stamp.toNat)
    (restoring : Evicting (some item.key) wants full second q) :
    q.Sound stamp.toNat ∧ p.Writes item stamp (first ++ second) q := by
  obtain ⟨-, before, evictedBefore, nodupBefore, -⟩ := sound.evicting making
  obtain ⟨after, without, evictedAfter, nodupAfter, others⟩ := stored.evicting restoring
  have spared : item.key ∉ second := fun mem => others _ mem rfl
  have absentFirst : item.key ∉ first := fun mem => before.stored _ mem absent
  -- a victim of the second run was in the partition before the item was added
  have old (key : Key) (mem : key ∈ second) : room.view key ≠ none := by
    have := without.stored key mem
    rwa [adds.view, if_neg fun same : key = item.key => spared (same ▸ mem)] at this
  refine ⟨after, ⟨?_, ?_, ?_, ?_, ?_, ?_, ?_, ?_, ?_, ?_, ?_⟩⟩
  · intro key
    rw [without.view, adds.view, before.view]
    by_cases same : key = item.key
    · subst same
      simp [spared]
    · by_cases inFirst : key ∈ first <;> by_cases inSecond : key ∈ second <;> simp [same, inFirst, inSecond]
  · simp [absentFirst, spared]
  · intro key mem
    rcases List.mem_append.1 mem with early | late
    · exact before.stored key early
    · have := old key late
      rw [before.view] at this
      split at this
      · exact absurd rfl this
      · exact this
  · refine List.nodup_append.2 ⟨nodupBefore, nodupAfter, fun a early b late same => ?_⟩
    refine old b late ?_
    rw [before.view, if_pos (same ▸ early)]
  · intro link mem
    obtain ⟨region, links⟩ := adds.links
    rcases List.mem_cons.1 (links.subset ((without.links link).1 mem).1) with rfl | held
    · exact .inr ⟨rfl, rfl⟩
    · have there := ((before.links link).1 held).1
      refine .inl ⟨there, sound.chains.find?_eq_none_iff.1 (sound.view_eq_none_iff.1 absent) link there⟩
  · have := before.count
    have := without.count
    rw [adds.count] at this
    rw [absent, List.length_append, Option.toList_none, List.length_nil]
    omega
  · rw [evictedAfter, adds.evictions, evictedBefore, List.length_append]
    omega
  · exact without.blockSize.trans (adds.blockSize.trans before.blockSize)
  · exact without.totalBlocks.trans (adds.totalBlocks.trans before.totalBlocks)
  · exact without.closed.trans (adds.closed.trans before.closed)
  · exact without.ceiling.trans (adds.ceiling.trans before.ceiling)

/-- Storing an item under a key that has no entry is a write. -/
theorem Sound.writes {p : Partition} {drawn : Nat} (sound : p.Sound drawn) (item : Item)
    (absent : p.view item.key = none) (fits : item.encodedLength ≤ p.arena.size)
    (short : item.encodedLength < UInt32.size) {stamp : UInt64} (fresh : drawn < stamp.toNat) :
    ∃ gone q, p.storeNew item.key item.encode stamp = (.ok (), q) ∧ q.Sound stamp.toNat ∧
      p.Writes item stamp gone q := by
  obtain ⟨first, room, full, second, q, making, adds, stored, restoring, -, answer⟩ :=
    sound.storeNew absent fits short fresh
  obtain ⟨after, writes⟩ := sound.writes_of_runs absent making adds stored restoring
  exact ⟨first ++ second, q, answer, after, writes⟩

end Partition
end BlockCache

import BlockCache.Proofs.Partition.Writing

/-!
# The operations of a partition

What each operation answers on a sound partition, and what it leaves: a write is refused only for an item
larger than the arena, a conditional write acts if the partition shows what it asks for, a read that counts
gives the link of its key a new stamp, and nothing else fails. Each lemma asks that the stamps drawn fit a
64-bit word after the operation; a stamp is then larger than all those drawn before it.
-/

open scoped List

namespace BlockCache

namespace Clocks

theorem commit_key (c : Clocks) (i : Item) : (c.commit i).1.key = i.key := rfl

theorem commit_stamp {c : Clocks} (i : Item) (few : (c.commit i).2.2.stamps.issued < UInt64.size) :
    (c.commit i).2.1.toNat = (c.commit i).2.2.stamps.issued := UInt64.toNat_ofNat_of_lt' few

end Clocks

namespace Partition

variable {p : Partition} {clocks : Clocks}

theorem put_of_large {item : Item} (large : p.size < item.encodedLength) :
    p.put clocks item = (.error (.outOfSpace item.encodedLength p.freeBytes), p, clocks) := by
  have full : p.checkFits item.encodedLength = .error (.outOfSpace item.encodedLength p.freeBytes) :=
    if_pos large
  simp only [put, full]

theorem checkFits_of_fits {length : Nat} (fits : length ≤ p.size) : p.checkFits length = .ok () := by
  rw [checkFits, if_neg (show ¬p.arena.size < length from Nat.not_lt.2 fits)]

theorem put_clocks {item : Item} (fits : item.encodedLength ≤ p.size) :
    (p.put clocks item).2.2 = (clocks.commit item).2.2 := by
  unfold put
  rw [checkFits_of_fits fits]
  dsimp only
  split
  · rfl
  · split <;> rfl

/-- What is inserted is as long as a region says, and lengths of regions are 32-bit words. -/
theorem short_of_insert {q : Partition} {key : Key} {encoded : Bytes} {stamp : UInt64}
    (inserted : p.insert key encoded stamp = (.ok (), q)) : encoded.length < UInt32.size := by
  unfold insert at inserted
  split at inserted
  · cases inserted
  · rename_i region room _
    split at inserted
    · cases inserted
    · rename_i arena written
      unfold Arena.write at written
      split at written
      · cases written
      · split at written
        · rename_i same
          rw [same]
          exact region.length.toNat_lt
        · cases written

theorem short_of_put {item : Item} {old : Option Item} (accepted : (p.put clocks item).1 = .ok old) :
    item.encodedLength < UInt32.size := by
  unfold put at accepted
  split at accepted
  · cases accepted
  · dsimp only at accepted
    split at accepted
    · cases accepted
    · split at accepted
      · cases accepted
      · rename_i stored
        unfold storeNew at stored
        split at stored
        · cases stored
        · rename_i inserted
          have short := short_of_insert inserted
          rw [Item.length_encode] at short
          exact short

/-- A write removes the key's old entry and stores the item under the values drawn. -/
theorem put_of_stored {q r : Partition} {item : Item} {old : Option Item} (fits : item.encodedLength ≤ p.size)
    (removed : p.remove item.key = (.ok old, q))
    (stored : q.storeNew item.key (clocks.commit item).1.encode (clocks.commit item).2.1 = (.ok (), r)) :
    p.put clocks item = (.ok old, r, (clocks.commit item).2.2) := by
  unfold put
  rw [checkFits_of_fits fits]
  dsimp only
  rw [clocks.commit_key, removed]
  dsimp only
  rw [stored]

/-- A write into a partition from which the key's old entry was taken out first. -/
theorem Writes.of_removes {q r : Partition} {item : Item} {stamp : UInt64} {gone : List Key}
    (removes : p.Removes item.key q) (writes : q.Writes item stamp gone r) : p.Writes item stamp gone r := by
  refine ⟨fun key => ?_, writes.spared, fun key taken => ?_, writes.nodup, fun link there => ?_, ?_,
    writes.evictions.trans (by rw [removes.evictions]), writes.blockSize.trans removes.blockSize,
    writes.totalBlocks.trans removes.totalBlocks, writes.closed.trans removes.closed,
    writes.ceiling.trans removes.ceiling⟩
  · rw [writes.view]
    split
    · rfl
    · rename_i other
      rw [removes.view, if_neg other]
  · have shown := writes.stored key taken
    rw [removes.view] at shown
    split at shown
    · exact absurd rfl shown
    · exact shown
  · rcases writes.links link there with ⟨old, other⟩ | new
    · exact .inl ⟨((removes.links link).1 old).1, other⟩
    · exact .inr new
  · have := writes.count
    have := removes.count
    rw [removes.view, if_pos rfl, Option.toList_none, List.length_nil] at *
    omega

/-- `q` is `p` with other stamps. -/
structure Reads (p q : Partition) : Prop where
  arena : q.arena = p.arena
  links : ∀ link ∈ q.chains.links, ∃ old ∈ p.chains.links, old.key = link.key
  view : ∀ key, q.view key = p.view key
  count : q.count = p.count
  evictions : q.evictions = p.evictions
  ceiling : q.ceiling = p.ceiling

/-- The partition with another stamp on a link. -/
def restamped (p : Partition) (link : Link) (stamp : UInt64) : Partition :=
  { p with
    chains := p.chains.restamp link.key stamp
    queue := p.queue.touch link.stamp stamp }

theorem Holds.restamped {p : Partition} {before other link : Link} {stamp : UInt64} {item : Item}
    (holds : p.Holds before item) (keyed : before.key = other.key) (region : before.region = other.region) :
    (p.restamped link stamp).Holds other item :=
  ⟨holds.key.trans keyed, region ▸ holds.bytes, region ▸ holds.length, region ▸ holds.blocks⟩

namespace Sound

variable {drawn : Nat}

/-- A write of an item that fits stores it under the next CAS value and answers what its key held. -/
theorem put (sound : p.Sound clocks.stamps.issued) {item : Item} (fits : item.encodedLength ≤ p.size)
    (short : item.encodedLength < UInt32.size) (few : (p.put clocks item).2.2.stamps.issued < UInt64.size) :
    ∃ gone q, p.put clocks item = (.ok (p.view item.key), q, (clocks.commit item).2.2) ∧
      q.Sound (clocks.commit item).2.2.stamps.issued ∧
      p.Writes (clocks.commit item).1 (clocks.commit item).2.1 gone q := by
  rw [put_clocks fits] at few
  have stamp := clocks.commit_stamp item few
  obtain ⟨q, removed, after, removes⟩ := sound.remove item.key
  have absent : q.view item.key = none := by rw [removes.view, if_pos rfl]
  have fresh : clocks.stamps.issued < (clocks.commit item).2.1.toNat := by
    rw [stamp]
    exact Nat.lt_succ_self _
  obtain ⟨gone, r, stored, final, writes⟩ := after.writes (clocks.commit item).1 absent
    (removes.size.symm ▸ fits) short fresh
  exact ⟨gone, r, put_of_stored fits removed stored, stamp ▸ final, .of_removes removes writes⟩

section Restamping

variable (sound : p.Sound drawn) {link : Link} (mem : link ∈ p.chains.links) (stamp : UInt64)

include sound mem

theorem links_restamped :
    (p.restamped link stamp).chains.links ~ { link with stamp } :: (p.chains.erase link.key).links :=
  sound.chains.links_restamp_perm (sound.chains.find?_eq_some_iff.2 ⟨mem, rfl⟩) stamp

theorem mem_links_restamped {other : Link} : other ∈ (p.restamped link stamp).chains.links ↔
    other = { link with stamp } ∨ other ∈ p.chains.links ∧ other.key ≠ link.key := by
  rw [(sound.links_restamped mem stamp).mem_iff, List.mem_cons, sound.chains.mem_links_erase]

/-- Every link has the key and the region of a link that was there before. -/
theorem link_of_restamped {other : Link} (there : other ∈ (p.restamped link stamp).chains.links) :
    ∃ before ∈ p.chains.links, before.key = other.key ∧ before.region = other.region := by
  rcases (sound.mem_links_restamped mem stamp).1 there with rfl | ⟨held, -⟩
  · exact ⟨link, mem, rfl, rfl⟩
  · exact ⟨other, held, rfl, rfl⟩

variable (fresh : drawn < stamp.toNat)

include fresh

theorem lists_restamped : (p.restamped link stamp).queue.Lists (p.restamped link stamp).chains.links := by
  have old := Chains.links_perm_of_find? (sound.chains.find?_eq_some_iff.2 ⟨mem, rfl⟩)
  have erased := sound.queued.erase old fun other there => by
    obtain ⟨held, ne⟩ := sound.chains.mem_links_erase.1 there
    exact sound.stamp_ne held mem ne
  change (p.queue.touch link.stamp stamp).Lists _
  rw [Queue.touch, sound.queued.get? mem]
  refine erased.push { link with stamp } (fun other there again => ?_) (sound.links_restamped mem stamp)
  have older := sound.stamps other (sound.chains.mem_links_erase.1 there).1
  rw [again] at older
  exact absurd fresh (Nat.not_lt.2 older)

theorem restamped : (p.restamped link stamp).Sound stamp.toNat := by
  have links := sound.links_restamped mem stamp
  have old := Chains.links_perm_of_find? (sound.chains.find?_eq_some_iff.2 ⟨mem, rfl⟩)
  constructor
  · exact sound.arena
  · exact sound.chains.restamp link.key stamp
  · rw [links.length_eq, List.length_cons, ← List.length_cons (a := link), ← old.length_eq]
    exact sound.count
  · exact sound.lists_restamped mem stamp fresh
  · intro other there
    rcases (sound.mem_links_restamped mem stamp).1 there with rfl | ⟨held, -⟩
    · exact Nat.le_refl _
    · exact Nat.le_of_lt (Nat.lt_of_le_of_lt (sound.stamps other held) fresh)
  · have renamed := links.map fun link : Link => link.region.run
    have before := old.map fun link : Link => link.region.run
    exact sound.runs.trans (before.trans renamed.symm)
  · intro other there
    obtain ⟨before, held, keyed, region⟩ := sound.link_of_restamped mem stamp there
    exact (sound.stored before held).imp fun item holds => holds.restamped keyed region

/-- A new stamp for a link changes nothing but the order of eviction. -/
theorem reads_restamped : p.Reads (p.restamped link stamp) := by
  have after := sound.restamped mem stamp fresh
  constructor
  · rfl
  · intro other there
    obtain ⟨before, held, keyed, -⟩ := sound.link_of_restamped mem stamp there
    exact ⟨before, held, keyed⟩
  · intro key
    refine sound.view_eq_of_links after (fun other held keyed => ?_) fun other there keyed => ?_
    · by_cases named : key = link.key
      · obtain rfl : other = link := List.inj_on_of_nodup_map sound.chains.unique held mem (keyed.trans named)
        exact ⟨_, (sound.mem_links_restamped mem stamp).2 (.inl rfl), keyed, fun _ holds => holds.restamped rfl rfl⟩
      · exact ⟨other, (sound.mem_links_restamped mem stamp).2 (.inr ⟨held, keyed ▸ named⟩), keyed,
          fun _ holds => holds.restamped rfl rfl⟩
    · obtain ⟨before, held, same, -⟩ := sound.link_of_restamped mem stamp there
      exact ⟨before, held, same.trans keyed⟩
  · rfl
  · rfl
  · rfl

end Restamping

theorem get_answer (sound : p.Sound drawn) (key : Key) (touch : Bool) :
    (p.get clocks key touch).1 = .ok (p.view key) := by
  unfold Partition.get
  rw [sound.lookup_eq]
  split
  · rename_i same
    rw [← same]
    split <;> rfl
  · rfl

/-- A read that does not count, or finds nothing, changes nothing. -/
theorem get_idle (sound : p.Sound drawn) {key : Key} {touch : Bool} (idle : touch = false ∨ p.view key = none) :
    p.get clocks key touch = (.ok (p.view key), p, clocks) := by
  unfold Partition.get
  rw [sound.lookup_eq]
  split
  · rename_i item _ shown
    rw [← shown]
    rcases idle with rfl | absent
    · rfl
    · rw [absent] at shown
      cases shown
  · rfl

/-- A read that counts gives the link of the key the next stamp. -/
theorem get_restamps (sound : p.Sound drawn) {key : Key} (shown : p.view key ≠ none) :
    ∃ link ∈ p.chains.links, link.key = key ∧ p.get clocks key true =
      (.ok (p.view key), p.restamped link clocks.drawStamp.1, clocks.drawStamp.2) := by
  obtain ⟨item, held⟩ := Option.ne_none_iff_exists'.1 shown
  obtain ⟨link, mem, rfl, -⟩ := sound.view_eq_some_iff.1 held
  refine ⟨link, mem, rfl, ?_⟩
  rw [Partition.get, sound.chains.find?_eq_some_iff.2 ⟨mem, rfl⟩, sound.lookup_eq, held]
  rfl

/-- A read answers what the key holds. -/
theorem get (sound : p.Sound clocks.stamps.issued) (key : Key) (touch : Bool)
    (few : (p.get clocks key touch).2.2.stamps.issued < UInt64.size) :
    ∃ q clocks', p.get clocks key touch = (.ok (p.view key), q, clocks') ∧ q.Sound clocks'.stamps.issued ∧
      clocks.stamps.issued ≤ clocks'.stamps.issued ∧ clocks'.cas = clocks.cas ∧ p.Reads q := by
  by_cases idle : touch = false ∨ p.view key = none
  · exact ⟨p, clocks, sound.get_idle idle, sound, Nat.le_refl _, rfl,
      ⟨rfl, fun link mem => ⟨link, mem, rfl⟩, fun _ => rfl, rfl, rfl, rfl⟩⟩
  · obtain ⟨touched, shown⟩ := not_or.1 idle
    obtain rfl : touch = true := by simpa using touched
    obtain ⟨link, mem, -, read⟩ := sound.get_restamps shown
    rw [read] at few
    have stamp : clocks.drawStamp.1.toNat = clocks.stamps.issued + 1 := UInt64.toNat_ofNat_of_lt' few
    have fresh : clocks.stamps.issued < clocks.drawStamp.1.toNat := by omega
    have after := sound.restamped mem _ fresh
    rw [stamp] at after
    exact ⟨_, _, read, after, Nat.le_succ _, rfl, sound.reads_restamped mem _ fresh⟩

theorem putIfAbsent_of_present (sound : p.Sound drawn) {item present : Item} (shown : p.view item.key = some present) :
    p.putIfAbsent clocks item = (.ok (some present), p, clocks) := by
  rw [Partition.putIfAbsent, sound.lookup_eq, shown]

theorem putIfAbsent_of_absent (sound : p.Sound drawn) {item : Item} (absent : p.view item.key = none) :
    p.putIfAbsent clocks item = ((p.put clocks item).1.map fun _ => none, (p.put clocks item).2) := by
  rw [Partition.putIfAbsent, sound.lookup_eq, absent]
  dsimp only
  rcases p.put clocks item with ⟨e | old, q, after⟩ <;> rfl

theorem replaceIf_of_other (sound : p.Sound drawn) {expected item : Item} (other : p.view item.key ≠ some expected) :
    p.replaceIf clocks expected item = (.ok false, p, clocks) := by
  rw [Partition.replaceIf, sound.lookup_eq]
  dsimp only
  rw [if_neg other]

theorem replaceIf_of_same (sound : p.Sound drawn) {expected item : Item} (same : p.view item.key = some expected) :
    p.replaceIf clocks expected item = ((p.put clocks item).1.map fun _ => true, (p.put clocks item).2) := by
  rw [Partition.replaceIf, sound.lookup_eq]
  dsimp only
  rw [if_pos same]
  rcases p.put clocks item with ⟨e | old, q, after⟩ <;> rfl

theorem removeIf_of_other (sound : p.Sound drawn) {expected : Item} (other : p.view expected.key ≠ some expected) :
    p.removeIf expected = (.ok false, p) := by
  rw [Partition.removeIf, sound.lookup_eq]
  dsimp only
  rw [if_neg other]

theorem removeIf_of_same (sound : p.Sound drawn) {expected : Item} (same : p.view expected.key = some expected) :
    ∃ q, p.removeIf expected = (.ok true, q) ∧ q.Sound drawn ∧ p.Removes expected.key q := by
  obtain ⟨q, unlinked, after, removes⟩ := sound.unlink_of_view same
  refine ⟨q, ?_, after, removes⟩
  rw [Partition.removeIf, sound.lookup_eq]
  dsimp only
  rw [if_pos same, unlinked]

/-- A partition without entries is sound. -/
theorem of_empty {q : Partition} (arena : q.arena.Sound) (heads : q.arena.heads = ∅) (buckets : q.chains.buckets = ∅)
    (queue : q.queue = .empty) (count : q.count = 0) : q.Sound 0 := by
  have links : q.chains.links = [] := by rw [Chains.links, buckets]; rfl
  refine ⟨arena, .of_empty buckets, ?_, ?_, ?_, ?_, ?_⟩
  · rw [count, links, List.length_nil]
  · rw [queue, links]
    exact .empty
  · simp [links]
  · rw [heads, links]
    exact .refl _
  · simp [links]

theorem new (buckets arenaBytes blockSize ceiling : Nat) :
    (Partition.new buckets arenaBytes blockSize ceiling).Sound 0 :=
  of_empty (.new arenaBytes blockSize) rfl rfl rfl rfl

theorem clear (sound : p.Sound drawn) : p.clear.Sound 0 := of_empty sound.arena.clear rfl rfl rfl rfl

theorem close (p : Partition) : p.close.Sound 0 := of_empty .close rfl rfl rfl rfl

end Sound

/-- An arena has no more bytes than were asked for. -/
theorem size_new_le (buckets arenaBytes blockSize ceiling : Nat) :
    (Partition.new buckets arenaBytes blockSize ceiling).size ≤ arenaBytes :=
  calc min (arenaBytes / max blockSize 1) Arena.maxBlocks * max blockSize 1
    _ ≤ arenaBytes / max blockSize 1 * max blockSize 1 := Nat.mul_le_mul_right _ (Nat.min_le_left _ _)
    _ ≤ arenaBytes := Nat.div_mul_le_self _ _

theorem view_of_empty {q : Partition} (buckets : q.chains.buckets = ∅) (key : Key) : q.view key = none := by
  simp [view, lookup, Chains.find?, Chains.chain, buckets]

end Partition
end BlockCache

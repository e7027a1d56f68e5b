import BlockCache.Partition.Basic
import BlockCache.Proofs.Arena.Payload
import BlockCache.Proofs.Item.Codec
import BlockCache.Proofs.Partition.Chains

/-!
# What a partition holds

A partition is sound if its three structures agree: the chains hold each key once, the queue has the
stamps and keys of the chains' links and nothing else, and the live runs of the arena are the regions
of the links, each with the bytes of an item of the link's key. `view` is the partition as a map from
keys to items. Taking an entry out keeps a partition sound and takes its key out of the view.
-/

open scoped List

namespace BlockCache

/-- The run that a region names, as the arena's table of run heads has it. -/
def Region.run (r : Region) : Nat × UInt32 := (r.start.toNat, r.blocks)

namespace Queue

/-- The queue has the stamps and keys of the links and nothing else. -/
def Lists (q : Queue) (links : List Link) : Prop :=
  ∀ stamp key, q.get? stamp = some key ↔ ∃ link ∈ links, link.stamp = stamp ∧ link.key = key

variable {q : Queue} {links rest : List Link} {link : Link}

theorem Lists.get? (lists : q.Lists links) (mem : link ∈ links) : q.get? link.stamp = some link.key :=
  (lists _ _).2 ⟨link, mem, rfl, rfl⟩

theorem Lists.empty : empty.Lists [] := by simp [Lists]

/-- A link with a stamp of its own is pushed under that stamp. -/
theorem Lists.push (lists : q.Lists rest) (link : Link) (fresh : ∀ other ∈ rest, other.stamp ≠ link.stamp)
    (split : links ~ link :: rest) : (q.push link.stamp link.key).Lists links := by
  intro stamp key
  rw [get?_push]
  simp only [split.mem_iff, List.mem_cons]
  by_cases here : link.stamp = stamp
  · rw [if_pos here, Option.some.injEq]
    constructor
    · exact fun same => ⟨link, .inl rfl, here, same⟩
    · rintro ⟨other, rfl | mem, stamped, keyed⟩
      · exact keyed
      · exact absurd (stamped.trans here.symm) (fresh other mem)
  · rw [if_neg here, lists]
    constructor
    · rintro ⟨other, mem, both⟩
      exact ⟨other, .inr mem, both⟩
    · rintro ⟨other, rfl | mem, both⟩
      · exact absurd both.1 here
      · exact ⟨other, mem, both⟩

/-- A link that alone has its stamp is erased with the stamp. -/
theorem Lists.erase (lists : q.Lists links) (split : links ~ link :: rest)
    (alone : ∀ other ∈ rest, other.stamp ≠ link.stamp) : (q.erase link.stamp).Lists rest := by
  intro stamp key
  rw [get?_erase]
  by_cases here : link.stamp = stamp
  · rw [if_pos here]
    refine ⟨nofun, ?_⟩
    rintro ⟨other, mem, stamped, -⟩
    exact absurd (stamped.trans here.symm) (alone other mem)
  · rw [if_neg here, lists]
    simp only [split.mem_iff, List.mem_cons]
    constructor
    · rintro ⟨other, rfl | mem, both⟩
      · exact absurd both.1 here
      · exact ⟨other, mem, both⟩
    · rintro ⟨other, mem, both⟩
      exact ⟨other, .inr mem, both⟩

end Queue

namespace Partition

/-- The region of a link has the bytes of an item, in as many blocks as they need. -/
structure Holds (p : Partition) (link : Link) (item : Item) : Prop where
  key : item.key = link.key
  bytes : p.arena.get link.region = .ok item.encode
  length : link.region.length.toNat = item.encodedLength
  blocks : link.region.blocks.toNat = p.arena.blocksFor item.encodedLength

/-- Chains, queue and arena agree, and no more than `drawn` stamps are in use. -/
structure Sound (p : Partition) (drawn : Nat) : Prop where
  arena : p.arena.Sound
  chains : p.chains.Sound
  count : p.count = p.chains.links.length
  queued : p.queue.Lists p.chains.links
  stamps : ∀ link ∈ p.chains.links, link.stamp.toNat ≤ drawn
  runs : p.arena.heads.toList ~ p.chains.links.map (·.region.run)
  stored : ∀ link ∈ p.chains.links, ∃ item, p.Holds link item

/-- The item that a partition holds under a key. -/
def view (p : Partition) (key : Key) : Option Item :=
  match p.lookup key with
  | .ok found => found
  | .error _ => none

/-- The partition without the entry of a link. -/
def withoutEntry (p : Partition) (link : Link) : Partition :=
  { p with
    arena := p.arena.withoutRun link.region
    chains := p.chains.erase link.key
    count := p.count - 1
    queue := p.queue.erase link.stamp }

/-- `q` is `p` without the entries of some keys, all of which had one. -/
structure Without (p : Partition) (gone : List Key) (q : Partition) : Prop where
  links : ∀ link, link ∈ q.chains.links ↔ link ∈ p.chains.links ∧ link.key ∉ gone
  view : ∀ key, q.view key = if key ∈ gone then none else p.view key
  stored : ∀ key ∈ gone, p.view key ≠ none
  count : q.count + gone.length = p.count
  blockSize : q.arena.blockSize = p.arena.blockSize
  totalBlocks : q.arena.totalBlocks = p.arena.totalBlocks
  closed : q.arena.closed = p.arena.closed
  ceiling : q.ceiling = p.ceiling

theorem Without.refl (p : Partition) : p.Without [] p := by
  constructor <;> simp

theorem Without.trans {p q r : Partition} {first second : List Key} (left : p.Without first q)
    (right : q.Without second r) : p.Without (first ++ second) r where
  links link := by
    rw [right.links, left.links, List.mem_append, not_or, and_assoc]
  view key := by
    rw [right.view, left.view]
    simp only [List.mem_append]
    by_cases before : key ∈ first <;> by_cases after : key ∈ second <;> simp [before, after]
  stored key mem := by
    rcases List.mem_append.1 mem with before | after
    · exact left.stored key before
    · have := right.stored key after
      rw [left.view] at this
      split at this
      · exact absurd rfl this
      · exact this
  count := by
    have := left.count
    have := right.count
    rw [List.length_append]
    omega
  blockSize := right.blockSize.trans left.blockSize
  totalBlocks := right.totalBlocks.trans left.totalBlocks
  closed := right.closed.trans left.closed
  ceiling := right.ceiling.trans left.ceiling

theorem Without.size {p q : Partition} {gone : List Key} (without : p.Without gone q) :
    q.arena.size = p.arena.size := by
  rw [Arena.size, Arena.size, without.blockSize, without.totalBlocks]

/-- `q` is `p` without the entry of a key, if it had one. -/
structure Removes (p : Partition) (key : Key) (q : Partition) : Prop where
  links : ∀ link, link ∈ q.chains.links ↔ link ∈ p.chains.links ∧ link.key ≠ key
  view : ∀ other, q.view other = if other = key then none else p.view other
  count : q.count + (p.view key).toList.length = p.count
  evictions : q.evictions = p.evictions
  blockSize : q.arena.blockSize = p.arena.blockSize
  totalBlocks : q.arena.totalBlocks = p.arena.totalBlocks
  closed : q.arena.closed = p.arena.closed
  ceiling : q.ceiling = p.ceiling

theorem Removes.size {p q : Partition} {key : Key} (removes : p.Removes key q) : q.arena.size = p.arena.size := by
  rw [Arena.size, Arena.size, removes.blockSize, removes.totalBlocks]

theorem lookup_of_holds {p : Partition} {link : Link} {item : Item} {key : Key} (found : p.chains.find? key = some link)
    (holds : p.Holds link item) : p.lookup key = .ok (some item) := by
  have same : ({ item with key } : Item) = item := by
    rw [← Chains.find?_key found, ← holds.key]
  rw [lookup, found]
  dsimp only
  rw [holds.bytes]
  dsimp only
  rw [Item.decode_encode, same]
  rfl

namespace Sound

variable {p : Partition} {drawn : Nat}

theorem mono (sound : p.Sound drawn) {later : Nat} (le : drawn ≤ later) : p.Sound later :=
  { sound with stamps := fun link mem => Nat.le_trans (sound.stamps link mem) le }

theorem live (sound : p.Sound drawn) {link : Link} (mem : link ∈ p.chains.links) :
    p.arena.heads[link.region.start.toNat]? = some link.region.blocks :=
  Std.TreeMap.mem_toList_iff_getElem?_eq_some.1 (sound.runs.symm.subset (List.mem_map_of_mem mem))

/-- The region of every link may be used. -/
theorem owns (sound : p.Sound drawn) {link : Link} (mem : link ∈ p.chains.links) : p.arena.Owns link.region := by
  obtain ⟨item, holds⟩ := sound.stored link mem
  refine ⟨sound.live mem, ?_⟩
  rw [holds.length, holds.blocks]
  exact p.arena.le_blocksFor_mul _

/-- Two links have different runs. -/
theorem start_ne (sound : p.Sound drawn) {link other : Link} (mem : link ∈ p.chains.links)
    (memOther : other ∈ p.chains.links) (ne : link.key ≠ other.key) : link.region.start ≠ other.region.start := by
  intro same
  have starts : (p.chains.links.map (·.region.start.toNat)).Nodup := by
    have keys := sound.runs.map (·.1)
    rw [List.map_map] at keys
    change _ ~ p.chains.links.map (·.region.start.toNat) at keys
    rw [← keys.nodup_iff, Std.TreeMap.map_fst_toList_eq_keys]
    exact Std.TreeMap.nodup_keys
  exact ne (congrArg Link.key (List.inj_on_of_nodup_map starts mem memOther (congrArg UInt32.toNat same)))

/-- Every link has its own stamp. -/
theorem stamp_ne (sound : p.Sound drawn) {link other : Link} (mem : link ∈ p.chains.links)
    (memOther : other ∈ p.chains.links) (ne : link.key ≠ other.key) : link.stamp ≠ other.stamp := by
  intro same
  have first := sound.queued.get? mem
  rw [same, sound.queued.get? memOther] at first
  exact ne (Option.some.inj first).symm

theorem lookup_eq (sound : p.Sound drawn) (key : Key) : p.lookup key = .ok (p.view key) := by
  cases found : p.chains.find? key with
  | none => simp [view, lookup, found]
  | some link =>
    obtain ⟨item, holds⟩ := sound.stored link (sound.chains.find?_eq_some_iff.1 found).1
    rw [view, lookup_of_holds found holds]

theorem view_eq_some_iff (sound : p.Sound drawn) {key : Key} {item : Item} :
    p.view key = some item ↔ ∃ link ∈ p.chains.links, link.key = key ∧ p.Holds link item := by
  constructor
  · intro shown
    cases found : p.chains.find? key with
    | none => simp [view, lookup, found] at shown
    | some link =>
      obtain ⟨mem, same⟩ := sound.chains.find?_eq_some_iff.1 found
      obtain ⟨held, holds⟩ := sound.stored link mem
      rw [view, lookup_of_holds found holds] at shown
      obtain rfl := Option.some.inj shown
      exact ⟨link, mem, same, holds⟩
  · rintro ⟨link, mem, same, holds⟩
    rw [view, lookup_of_holds (sound.chains.find?_eq_some_iff.2 ⟨mem, same⟩) holds]

theorem view_eq_none_iff (sound : p.Sound drawn) {key : Key} :
    p.view key = none ↔ p.chains.find? key = none := by
  constructor
  · intro hidden
    cases found : p.chains.find? key with
    | none => rfl
    | some link =>
      obtain ⟨item, holds⟩ := sound.stored link (sound.chains.find?_eq_some_iff.1 found).1
      rw [view, lookup_of_holds found holds] at hidden
      cases hidden
  · intro absent
    simp [view, lookup, absent]

theorem key_of_view (sound : p.Sound drawn) {key : Key} {item : Item} (shown : p.view key = some item) :
    item.key = key := by
  obtain ⟨link, -, same, holds⟩ := sound.view_eq_some_iff.1 shown
  exact holds.key.trans same

/-- What is stored would fit the arena if it were empty. -/
theorem encodedLength_le (sound : p.Sound drawn) {key : Key} {item : Item} (shown : p.view key = some item) :
    item.encodedLength ≤ p.size := by
  obtain ⟨link, mem, -, holds⟩ := sound.view_eq_some_iff.1 shown
  obtain ⟨-, inside⟩ := sound.arena.inside (sound.live mem)
  calc item.encodedLength
    _ ≤ link.region.blocks.toNat * p.arena.blockSize := holds.length ▸ (sound.owns mem).fits
    _ ≤ p.arena.totalBlocks * p.arena.blockSize := Nat.mul_le_mul_right _ (by omega)

/-- What a link holds stays where it is while its run is live and the arena's bytes are not written. -/
theorem holds_of_tape_eq (sound : p.Sound drawn) {a : Arena} {link : Link} {item : Item} (holds : p.Holds link item)
    (mem : link ∈ p.chains.links) (after : a.Sound) (live : a.heads[link.region.start.toNat]? = some link.region.blocks)
    (tape : a.tape = p.arena.tape) (blockSize : a.blockSize = p.arena.blockSize) :
    a.get link.region = .ok item.encode := by
  have owns : a.Owns link.region := ⟨live, by rw [blockSize]; exact (sound.owns mem).fits⟩
  rw [after.get_eq owns, ← holds.bytes, sound.arena.get_eq (sound.owns mem), tape, Arena.address, blockSize]
  rfl

/-- A partition shows the same under a key if its links for that key hold the same. -/
theorem view_eq_of_links {q : Partition} {later : Nat} (sound : p.Sound drawn) (after : q.Sound later) {key : Key}
    (kept : ∀ link ∈ p.chains.links, link.key = key →
      ∃ other ∈ q.chains.links, other.key = key ∧ ∀ item, p.Holds link item → q.Holds other item)
    (none_new : ∀ link ∈ q.chains.links, link.key = key → ∃ old ∈ p.chains.links, old.key = key) :
    q.view key = p.view key := by
  cases shown : p.view key with
  | none =>
    rw [sound.view_eq_none_iff, sound.chains.find?_eq_none_iff] at shown
    rw [after.view_eq_none_iff, after.chains.find?_eq_none_iff]
    intro link mem same
    obtain ⟨old, held, keyed⟩ := none_new link mem same
    exact shown old held keyed
  | some item =>
    obtain ⟨link, mem, same, held⟩ := sound.view_eq_some_iff.1 shown
    obtain ⟨other, there, keyed, holds⟩ := kept link mem same
    exact after.view_eq_some_iff.2 ⟨other, there, keyed, holds item held⟩

/-- A partition whose links are some of those of another, holding the same items, shows the same. -/
theorem view_of_links {q : Partition} {later : Nat} (sound : p.Sound drawn) (after : q.Sound later) {gone : List Key}
    (links : ∀ link, link ∈ q.chains.links ↔ link ∈ p.chains.links ∧ link.key ∉ gone)
    (holds : ∀ link ∈ q.chains.links, ∀ item, p.Holds link item → q.Holds link item) (key : Key) :
    q.view key = if key ∈ gone then none else p.view key := by
  split
  · rename_i taken
    rw [after.view_eq_none_iff, after.chains.find?_eq_none_iff]
    rintro link mem rfl
    exact ((links link).1 mem).2 taken
  · rename_i kept
    refine sound.view_eq_of_links after (fun link mem same => ?_) fun link mem same =>
      ⟨link, ((links link).1 mem).1, same⟩
    have there := (links link).2 ⟨mem, same ▸ kept⟩
    exact ⟨link, there, same, holds link there⟩

section Unlinking

variable (sound : p.Sound drawn) {link : Link} (mem : link ∈ p.chains.links)

include sound

theorem mem_links_withoutEntry {other : Link} :
    other ∈ (p.withoutEntry link).chains.links ↔ other ∈ p.chains.links ∧ other.key ∉ [link.key] := by
  rw [List.mem_singleton]
  exact sound.chains.mem_links_erase

include mem

/-- The other links hold what they held: their runs stay live, and no byte is written. -/
theorem holds_withoutEntry {other : Link} (memOther : other ∈ p.chains.links) (ne : other.key ≠ link.key) {item : Item}
    (held : p.Holds other item) : (p.withoutEntry link).Holds other item := by
  have arena := sound.arena.withoutRun (sound.owns mem)
  have live : (p.arena.withoutRun link.region).heads[other.region.start.toNat]? = some other.region.blocks := by
    have apart := sound.start_ne mem memOther (Ne.symm ne)
    exact Arena.Sound.heads_withoutRun.2 ⟨fun eq => apart (UInt32.toNat_inj.1 eq), sound.live memOther⟩
  constructor
  · exact held.key
  · exact sound.holds_of_tape_eq held memOther arena live rfl rfl
  · exact held.length
  · exact held.blocks

theorem withoutEntry : (p.withoutEntry link).Sound drawn := by
  have found := sound.chains.find?_eq_some_iff.2 ⟨mem, rfl⟩
  have split := Chains.links_perm_of_find? found
  have length := split.length_eq
  rw [List.length_cons, ← sound.count] at length
  have old {other : Link} (there : other ∈ (p.withoutEntry link).chains.links) :
      other ∈ p.chains.links ∧ other.key ≠ link.key := sound.chains.mem_links_erase.1 there
  constructor
  · exact sound.arena.withoutRun (sound.owns mem)
  · exact sound.chains.erase link.key
  · change p.count - 1 = (p.chains.erase link.key).links.length
    omega
  · refine sound.queued.erase split fun other there => ?_
    obtain ⟨memOther, ne⟩ := old there
    exact sound.stamp_ne memOther mem ne
  · exact fun other there => sound.stamps other (old there).1
  · have runs := (Entries.toList_of_getElem? (sound.live mem)).symm.trans
      (sound.runs.trans (split.map (·.region.run)))
    exact runs.cons_inv
  · intro other there
    obtain ⟨memOther, ne⟩ := old there
    obtain ⟨item, held⟩ := sound.stored other memOther
    exact ⟨item, sound.holds_withoutEntry mem memOther ne held⟩

theorem without_withoutEntry : p.Without [link.key] (p.withoutEntry link) := by
  have found := sound.chains.find?_eq_some_iff.2 ⟨mem, rfl⟩
  have length := (Chains.links_perm_of_find? found).length_eq
  rw [List.length_cons, ← sound.count] at length
  constructor
  · exact fun other => sound.mem_links_withoutEntry
  · refine sound.view_of_links (sound.withoutEntry mem) (fun other => sound.mem_links_withoutEntry)
      fun other there item held => ?_
    obtain ⟨memOther, ne⟩ := sound.chains.mem_links_erase.1 there
    exact sound.holds_withoutEntry mem memOther ne held
  · intro key gone
    rw [List.mem_singleton.1 gone, ne_eq, sound.view_eq_none_iff, found]
    exact Option.some_ne_none _
  · change p.count - 1 + 1 = p.count
    omega
  · rfl
  · rfl
  · rfl
  · rfl

end Unlinking

/-- Unlinking a key that has an entry takes the entry out, and nothing else. -/
theorem unlink (sound : p.Sound drawn) {key : Key} {link : Link} (found : p.chains.find? key = some link) :
    ∃ q, p.unlink key = (.ok true, q) ∧ q.Sound drawn ∧ p.Without [key] q ∧ q.evictions = p.evictions := by
  obtain ⟨mem, rfl⟩ := sound.chains.find?_eq_some_iff.1 found
  refine ⟨p.withoutEntry link, ?_, sound.withoutEntry mem, sound.without_withoutEntry mem, rfl⟩
  rw [Partition.unlink, found]
  dsimp only
  rw [sound.arena.free_eq (sound.owns mem)]
  rfl

theorem removes_of_absent (sound : p.Sound drawn) {key : Key} (absent : p.view key = none) : p.Removes key p := by
  have others := sound.chains.find?_eq_none_iff.1 (sound.view_eq_none_iff.1 absent)
  refine ⟨fun link => ⟨fun mem => ⟨mem, others link mem⟩, And.left⟩, fun other => ?_, ?_, rfl, rfl, rfl, rfl, rfl⟩
  · split
    · rename_i same
      rw [same, absent]
    · rfl
  · rw [absent]
    rfl

/-- Unlinking a key that holds an item removes the key. -/
theorem unlink_of_view (sound : p.Sound drawn) {key : Key} {item : Item} (shown : p.view key = some item) :
    ∃ q, p.unlink key = (.ok true, q) ∧ q.Sound drawn ∧ p.Removes key q := by
  cases found : p.chains.find? key with
  | none => simp [sound.view_eq_none_iff.2 found] at shown
  | some link =>
    obtain ⟨q, unlinked, after, without, evictions⟩ := sound.unlink found
    refine ⟨q, unlinked, after,
      ⟨?_, ?_, ?_, evictions, without.blockSize, without.totalBlocks, without.closed, without.ceiling⟩⟩
    · simpa using without.links
    · simpa using without.view
    · rw [shown]
      exact without.count

/-- Removing a key answers what it held and takes its entry out. -/
theorem remove (sound : p.Sound drawn) (key : Key) :
    ∃ q, p.remove key = (.ok (p.view key), q) ∧ q.Sound drawn ∧ p.Removes key q := by
  cases shown : p.view key with
  | none =>
    refine ⟨p, ?_, sound, sound.removes_of_absent shown⟩
    rw [Partition.remove, sound.lookup_eq, shown]
  | some item =>
    obtain ⟨q, unlinked, after, removes⟩ := sound.unlink_of_view shown
    refine ⟨q, ?_, after, removes⟩
    rw [Partition.remove, sound.lookup_eq, shown]
    dsimp only
    rw [unlinked]

end Sound
end Partition
end BlockCache

import BlockCache.Proofs.Partition.Operations

/-!
# What holds of every partition

Soundness needs arenas that lengths of 32 bits can describe, and stamps that are never drawn twice. What
the chains say of the arena needs neither: every link has a live run of its own that is long enough for
an item. Runs that belong to no link do no harm, and a queue out of step with the chains costs no more
than an error. So in every partition a read finds what the last write of its key has put there.
-/

open scoped List

namespace BlockCache

/-- The errors that a store can come to, whatever its configuration and history. -/
inductive StoreError.Arises (allowed : Key → Prop) : StoreError → Prop where
  | space (requested available : Nat) : Arises allowed (.outOfSpace requested available)
  | closed : Arises allowed .closed
  /-- An item longer than a region can say. -/
  | length (written : Nat) (room : UInt32) :
      Arises allowed (.invalidRegion s!"write of {written} bytes into region of {room} bytes")
  /-- An old queue entry, left behind under a stamp that was drawn again. -/
  | unlinked {key : Key} : allowed key →
      Arises allowed (.invalidRegion s!"eviction queue names unlinked key {key.text}")

/-- What a step comes to: an answer or one of some errors, and a state that keeps the invariant. -/
structure Steps (errors : StoreError → Prop) (invariant : σ → Prop) (step : Except StoreError α × σ) : Prop where
  arises : ∀ e, step.1 = .error e → errors e
  kept : invariant step.2

namespace Steps

variable {errors : StoreError → Prop} {invariant : σ → Prop} {s : σ}

theorem ok (value : α) (kept : invariant s) : Steps errors invariant (.ok value, s) := ⟨nofun, kept⟩

theorem error {e : StoreError} (arises : errors e) (kept : invariant s) :
    Steps (α := α) errors invariant (.error e, s) := by
  refine ⟨?_, kept⟩
  rintro f ⟨⟩
  exact arises

/-- An error is passed on as it is. -/
theorem raise {e : StoreError} {t : τ} {other : τ → Prop} (steps : Steps (α := α) errors invariant (.error e, s))
    (kept : other t) : Steps (α := β) errors other (.error e, t) := error (steps.arises e rfl) kept

theorem mono {more : StoreError → Prop} {step : Except StoreError α × σ} (steps : Steps errors invariant step)
    (also : ∀ e, errors e → more e) : Steps more invariant step :=
  ⟨fun e raised => also e (steps.arises e raised), steps.kept⟩

end Steps

theorem Arena.alloc_arises {allowed : Key → Prop} {a : Arena} {size : Nat} {e : StoreError}
    (refused : a.alloc size = .error e) : StoreError.Arises allowed e := by
  cases closed : a.closed with
  | true =>
    rw [alloc, closed] at refused
    obtain rfl := Except.error.inj refused
    exact .closed
  | false =>
    rw [alloc_error closed refused]
    exact .space _ _

namespace Chains

variable {c : Chains} (sound : c.Sound) {key other : Key}

include sound

theorem find?_erase : (c.erase key).find? other = if other = key then none else c.find? other := by
  split
  · rename_i same
    rw [(sound.erase key).find?_eq_none_iff]
    exact fun link mem => same ▸ (sound.mem_links_erase.1 mem).2
  · rename_i ne
    cases found : c.find? other with
    | none =>
      rw [(sound.erase key).find?_eq_none_iff]
      exact fun link mem => sound.find?_eq_none_iff.1 found link (sound.mem_links_erase.1 mem).1
    | some link =>
      obtain ⟨mem, rfl⟩ := sound.find?_eq_some_iff.1 found
      exact (sound.erase key).find?_eq_some_iff.2 ⟨sound.mem_links_erase.2 ⟨mem, ne⟩, rfl⟩

/-- A new stamp moves no value. -/
theorem region_restamp {link : Link} (found : c.find? key = some link) (stamp : UInt64) :
    ((c.restamp key stamp).find? other).map (·.region) = (c.find? other).map (·.region) := by
  have perm := sound.links_restamp_perm found stamp
  have keyed := find?_key found
  have after := sound.restamp key stamp
  by_cases same : other = key
  · subst same
    have here : (c.restamp other stamp).find? other = some { link with stamp } :=
      after.find?_eq_some_iff.2 ⟨perm.symm.subset List.mem_cons_self, keyed⟩
    rw [here, found]
    rfl
  · refine congrArg (Option.map _) ?_
    cases before : c.find? other with
    | none =>
      rw [after.find?_eq_none_iff]
      intro held mem
      rcases List.mem_cons.1 (perm.subset mem) with rfl | old
      · exact fun eq => same (eq.symm.trans keyed)
      · exact sound.find?_eq_none_iff.1 before held (sound.mem_links_erase.1 old).1
    | some held =>
      obtain ⟨mem, rfl⟩ := sound.find?_eq_some_iff.1 before
      have kept := List.mem_cons_of_mem { link with stamp } (sound.mem_links_erase.2 ⟨mem, same⟩)
      exact after.find?_eq_some_iff.2 ⟨perm.symm.subset kept, rfl⟩

end Chains

namespace Partition

open StoreError (Arises)

/-- Each link has a live run of its own, long enough for an item; the queue names allowed keys only. -/
structure Coherent (allowed : Key → Prop) (p : Partition) : Prop where
  arena : p.arena.Sound
  chains : p.chains.Sound
  owns : ∀ link ∈ p.chains.links, p.arena.Owns link.region
  apart : ∀ link ∈ p.chains.links, ∀ other ∈ p.chains.links, link.key ≠ other.key →
    link.region.start ≠ other.region.start
  whole : ∀ link ∈ p.chains.links, Item.headerLength ≤ link.region.length.toNat
  queued : ∀ stamp key, p.queue.get? stamp = some key → allowed key

/-- What taking entries out leaves: a coherent partition with some of the links, the spared one among them. -/
structure Sheds (allowed : Key → Prop) (spared : Option Key) (p q : Partition) : Prop where
  coherent : q.Coherent allowed
  links : ∀ link ∈ q.chains.links, link ∈ p.chains.links
  spares : ∀ key, spared = some key → q.lookup key = p.lookup key

theorem Sheds.refl {allowed : Key → Prop} {spared : Option Key} {p : Partition} (coherent : p.Coherent allowed) :
    Sheds allowed spared p p :=
  ⟨coherent, fun _ mem => mem, fun _ _ => rfl⟩

theorem Sheds.trans {allowed : Key → Prop} {spared : Option Key} {p q r : Partition} (first : Sheds allowed spared p q)
    (second : Sheds allowed spared q r) : Sheds allowed spared p r :=
  ⟨second.coherent, fun link mem => first.links link (second.links link mem),
    fun key same => (second.spares key same).trans (first.spares key same)⟩

theorem lookup_congr {p q : Partition} {key : Key}
    (region : (q.chains.find? key).map (·.region) = (p.chains.find? key).map (·.region))
    (bytes : ∀ link, p.chains.find? key = some link → q.arena.get link.region = p.arena.get link.region) :
    q.lookup key = p.lookup key := by
  rw [lookup, lookup]
  cases before : p.chains.find? key with
  | none =>
    rw [before] at region
    rw [Option.map_eq_none_iff.1 region]
  | some link =>
    rw [before] at region
    obtain ⟨found, after, same⟩ := Option.map_eq_some_iff.1 region
    rw [after]
    dsimp only
    rw [same, bytes link before]

namespace Coherent

variable {allowed : Key → Prop} {p : Partition}

theorem get_eq (coherent : p.Coherent allowed) {link : Link} (mem : link ∈ p.chains.links) :
    p.arena.get link.region = .ok (p.arena.tape.read (p.arena.address link.region) link.region.length.toNat) :=
  coherent.arena.get_eq (coherent.owns link mem)

/-- Every link is read without an error. -/
theorem lookup_of_link (coherent : p.Coherent allowed) {key : Key} {link : Link} (found : p.chains.find? key = some link) :
    ∃ item, p.lookup key = .ok (some item) := by
  have mem := (coherent.chains.find?_eq_some_iff.1 found).1
  have long := coherent.whole link mem
  rw [lookup, found]
  dsimp only
  rw [coherent.get_eq mem]
  dsimp only
  rw [Item.decode, if_neg]
  · exact ⟨_, rfl⟩
  · rw [Tape.read_eq, List.length_map, List.length_range']
    omega

theorem lookup_eq (coherent : p.Coherent allowed) (key : Key) : p.lookup key = .ok (p.view key) := by
  have answers : ∃ shown, p.lookup key = .ok shown := by
    cases found : p.chains.find? key with
    | none => exact ⟨none, by rw [lookup, found]⟩
    | some link => exact (coherent.lookup_of_link found).imp' some fun _ => id
  obtain ⟨shown, answer⟩ := answers
  rw [view, answer]

theorem find?_of_view (coherent : p.Coherent allowed) {key : Key} (absent : p.view key = none) :
    p.chains.find? key = none := by
  cases found : p.chains.find? key with
  | none => rfl
  | some link =>
    obtain ⟨item, answer⟩ := coherent.lookup_of_link found
    rw [view, answer] at absent
    cases absent

theorem key_of_view {key : Key} {item : Item} (shown : p.view key = some item) : item.key = key := by
  have found : p.lookup key = .ok (some item) := by
    unfold view at shown
    split at shown
    · rename_i found answer
      rw [answer, shown]
    · cases shown
  unfold lookup at found
  split at found
  · cases found
  · split at found
    · cases found
    · rename_i bytes _
      unfold Item.decode at found
      split at found
      · cases found
      · obtain rfl := Option.some.inj (Except.ok.inj found)
        rfl

section Unlinking

variable (coherent : p.Coherent allowed) {link : Link} (mem : link ∈ p.chains.links)

include coherent mem

theorem heads_withoutEntry {other : Link} (memOther : other ∈ p.chains.links) (ne : other.key ≠ link.key) :
    (p.withoutEntry link).arena.Owns other.region := by
  have apart := coherent.apart link mem other memOther (Ne.symm ne)
  have owns := coherent.owns other memOther
  exact ⟨Arena.Sound.heads_withoutRun.2 ⟨fun same => apart (UInt32.toNat_inj.1 same), owns.live⟩, owns.fits⟩

theorem withoutEntry : (p.withoutEntry link).Coherent allowed := by
  have old {other : Link} (there : other ∈ (p.withoutEntry link).chains.links) :
      other ∈ p.chains.links ∧ other.key ≠ link.key := coherent.chains.mem_links_erase.1 there
  constructor
  · exact coherent.arena.withoutRun (coherent.owns link mem)
  · exact coherent.chains.erase link.key
  · exact fun other there => coherent.heads_withoutEntry mem (old there).1 (old there).2
  · exact fun one there other also => coherent.apart one (old there).1 other (old also).1
  · exact fun other there => coherent.whole other (old there).1
  · intro stamp key queued
    change (p.queue.erase link.stamp).get? stamp = some key at queued
    rw [Queue.get?_erase] at queued
    split at queued
    · cases queued
    · exact coherent.queued stamp key queued

theorem lookup_withoutEntry {key : Key} (ne : key ≠ link.key) : (p.withoutEntry link).lookup key = p.lookup key := by
  apply lookup_congr
  · exact congrArg _ ((Chains.find?_erase coherent.chains).trans (if_neg ne))
  · intro other found
    obtain ⟨memOther, rfl⟩ := coherent.chains.find?_eq_some_iff.1 found
    rw [(coherent.withoutEntry mem).arena.get_eq (coherent.heads_withoutEntry mem memOther ne), coherent.get_eq memOther]
    rfl

end Unlinking

/-- Unlinking a key never fails; it says whether the key had an entry. -/
theorem unlink (coherent : p.Coherent allowed) (key : Key) :
    ∃ q, p.unlink key = (.ok (p.chains.find? key).isSome, q) ∧ q.Coherent allowed ∧ q.chains.find? key = none ∧
      (∀ link ∈ q.chains.links, link ∈ p.chains.links) ∧ ∀ other, other ≠ key → q.lookup other = p.lookup other := by
  cases found : p.chains.find? key with
  | none =>
    refine ⟨p, ?_, coherent, found, fun _ mem => mem, fun _ _ => rfl⟩
    rw [Partition.unlink, found]
    rfl
  | some link =>
    obtain ⟨mem, rfl⟩ := coherent.chains.find?_eq_some_iff.1 found
    refine ⟨p.withoutEntry link, ?_, coherent.withoutEntry mem, ?_, ?_, ?_⟩
    · rw [Partition.unlink, found]
      dsimp only
      rw [coherent.arena.free_eq (coherent.owns link mem)]
      rfl
    · exact (Chains.find?_erase coherent.chains).trans (if_pos rfl)
    · exact fun other there => (coherent.chains.mem_links_erase.1 there).1
    · exact fun other ne => coherent.lookup_withoutEntry mem ne

/-- The queue may lose entries, and evictions may be counted. -/
theorem withQueue (coherent : p.Coherent allowed) {queue : Queue} (evictions : Nat)
    (queued : ∀ stamp key, queue.get? stamp = some key → allowed key) :
    { p with queue, evictions }.Coherent allowed :=
  ⟨coherent.arena, coherent.chains, coherent.owns, coherent.apart, coherent.whole, queued⟩

/-- An eviction takes at most an entry that is not spared. -/
theorem evictOne (coherent : p.Coherent allowed) (spared : Option Key) :
    Sheds allowed spared p (p.evictOne spared).2 ∧ Steps (Arises allowed) (Coherent allowed) (p.evictOne spared) := by
  cases chosen : p.victim? spared with
  | none =>
    rw [Partition.evictOne, chosen]
    exact ⟨.refl coherent, .ok _ coherent⟩
  | some entry =>
    obtain ⟨stamp, key⟩ := entry
    obtain ⟨q, unlinked, after, -, links, others⟩ := coherent.unlink key
    have victim := chosen
    rw [victim?_eq] at victim
    have queued := Queue.get?_of_oldestWhere? victim
    have other : some key ≠ spared := by simpa using Queue.wanted_of_oldestWhere? victim
    have spares (kept : Key) (same : spared = some kept) : q.lookup kept = p.lookup kept :=
      others kept fun eq => other (by rw [same, eq])
    rw [Partition.evictOne, chosen]
    dsimp only
    rw [unlinked]
    cases p.chains.find? key with
    | none =>
      have fewer (s : UInt64) (k : Key) (there : (q.queue.erase stamp).get? s = some k) : allowed k := by
        rw [Queue.get?_erase] at there
        split at there
        · cases there
        · exact after.queued s k there
      have kept := after.withQueue q.evictions fewer
      exact ⟨⟨kept, links, spares⟩, .error (.unlinked (coherent.queued stamp key queued)) kept⟩
    | some link =>
      have kept := after.withQueue (q.evictions + 1) after.queued
      exact ⟨⟨kept, links, spares⟩, .ok _ kept⟩

/-- A run reserved for no link yet does no harm. -/
theorem withRun (coherent : p.Coherent allowed) {size : Nat} {r : Region} {a : Arena}
    (reserved : p.arena.alloc size = .ok (r, a)) :
    { p with arena := a }.Coherent allowed ∧ ∀ link ∈ p.chains.links, link.region.start ≠ r.start := by
  obtain ⟨after, reserves⟩ := coherent.arena.alloc reserved
  have apart (link : Link) (mem : link ∈ p.chains.links) : link.region.start ≠ r.start := by
    intro same
    have live := (coherent.owns link mem).live
    rw [same, reserves.absent] at live
    cases live
  refine ⟨⟨after, coherent.chains, fun link mem => ?_, coherent.apart, coherent.whole, coherent.queued⟩, apart⟩
  have owns := coherent.owns link mem
  refine ⟨?_, reserves.blockSize.symm ▸ owns.fits⟩
  change a.heads[link.region.start.toNat]? = some link.region.blocks
  rw [reserves.heads, Std.TreeMap.getElem?_insert, if_neg, owns.live]
  rw [Nat.compare_eq_eq]
  exact fun same => apart link mem (UInt32.toNat_inj.1 same.symm)

/-- What making room leads to, whether or not there is room in the end. -/
theorem allocEvicting {p : Partition} (coherent : p.Coherent allowed) (size : Nat) :
    Steps (Arises allowed) (Coherent allowed) (p.allocEvicting size) ∧ ∀ r, (p.allocEvicting size).1 = .ok r →
      ∃ q a, Sheds allowed none p q ∧ q.arena.alloc size = .ok (r, a) ∧
        p.allocEvicting size = (.ok r, { q with arena := a }) := by
  rcases reserved : p.arena.alloc size with e | ⟨r, a⟩
  · have refused : StoreError.Arises allowed e := Arena.alloc_arises reserved
    rw [Partition.allocEvicting, reserved]
    cases e with
    | outOfSpace requested available =>
      have evicted := coherent.evictOne none
      dsimp only
      split
      · rename_i e q same
        rw [same] at evicted
        exact ⟨evicted.2.raise evicted.2.kept, nofun⟩
      · rename_i q same
        rw [same] at evicted
        exact ⟨.error refused evicted.2.kept, nofun⟩
      · rename_i key q same
        rw [same] at evicted
        obtain ⟨steps, found⟩ := evicted.1.coherent.allocEvicting size
        refine ⟨steps, fun r answer => ?_⟩
        obtain ⟨room, a, sheds, allocated, result⟩ := found r answer
        exact ⟨room, a, evicted.1.trans sheds, allocated, result⟩
    | _ => exact ⟨.error refused coherent, nofun⟩
  · rw [Partition.allocEvicting, reserved]
    refine ⟨.ok _ (coherent.withRun reserved).1, fun found answer => ?_⟩
    obtain rfl := Except.ok.inj answer
    exact ⟨p, a, .refl coherent, reserved, rfl⟩
termination_by p.chains.links.length
decreasing_by exact links_evictOne_lt (by assumption)

section Inserting

variable (coherent : p.Coherent allowed) {key : Key} {encoded : Bytes} {stamp : UInt64} (may : allowed key)
  (absent : p.chains.find? key = none) (long : Item.headerLength ≤ encoded.length) {r : Region} {a : Arena}
  (reserved : p.arena.alloc encoded.length = .ok (r, a)) (length : encoded.length = r.length.toNat)

/-- The partition with a link whose bytes are written. -/
def withLink (p : Partition) (key : Key) (encoded : Bytes) (stamp : UInt64) (r : Region) (a : Arena) : Partition :=
  { p with
    arena := { a with tape := a.tape.write (a.address r) encoded }
    chains := p.chains.push ⟨key, r, stamp⟩
    count := p.count + 1
    queue := p.queue.push stamp key }

include coherent reserved

/-- A region just reserved may be used, though it may be too short for its value. -/
theorem owns_of_alloc : a.Owns r := by
  obtain ⟨-, reserves⟩ := coherent.arena.alloc reserved
  refine ⟨?_, ?_⟩
  · rw [reserves.heads, Std.TreeMap.getElem?_insert_self]
  · rw [reserves.length, reserves.blocks, reserves.blockSize]
    refine Nat.le_trans ?_ (p.arena.le_blocksFor_mul _)
    rw [Nat.toUInt32, UInt32.toNat_ofNat']
    exact Nat.mod_le _ _

include may absent long length

theorem withLink_coherent : (withLink p key encoded stamp r a).Coherent allowed := by
  obtain ⟨⟨after, -, owns, -, -, -⟩, apart⟩ := coherent.withRun reserved
  have mem_links {link : Link} : link ∈ (withLink p key encoded stamp r a).chains.links ↔
      link = ⟨key, r, stamp⟩ ∨ link ∈ p.chains.links := by
    have perm : (withLink p key encoded stamp r a).chains.links ~ ⟨key, r, stamp⟩ :: p.chains.links :=
      p.chains.links_push_perm _
    rw [perm.mem_iff, List.mem_cons]
  constructor
  · exact after.withTape _
  · exact coherent.chains.push absent
  · intro link mem
    rcases mem_links.1 mem with rfl | old
    · have owned := coherent.owns_of_alloc reserved
      exact ⟨owned.live, owned.fits⟩
    · exact ⟨(owns link old).live, (owns link old).fits⟩
  · intro link mem other memOther ne
    rcases mem_links.1 mem with rfl | old <;> rcases mem_links.1 memOther with rfl | oldOther
    · exact absurd rfl ne
    · exact Ne.symm (apart other oldOther)
    · exact apart link old
    · exact coherent.apart link old other oldOther ne
  · intro link mem
    rcases mem_links.1 mem with rfl | old
    · exact length ▸ long
    · exact coherent.whole link old
  · intro s k queued
    change (p.queue.push stamp key).get? s = some k at queued
    rw [Queue.get?_push] at queued
    split at queued
    · obtain rfl := Option.some.inj queued
      exact may
    · exact coherent.queued s k queued

theorem lookup_withLink : (withLink p key encoded stamp r a).lookup key = (Item.decode key encoded).map some := by
  obtain ⟨arena, -⟩ := coherent.arena.alloc reserved
  have after : (withLink p key encoded stamp r a).Coherent allowed :=
    coherent.withLink_coherent may absent long reserved length
  have found : (withLink p key encoded stamp r a).chains.find? key = some ⟨key, r, stamp⟩ :=
    after.chains.find?_eq_some_iff.2 ⟨(p.chains.links_push_perm _).symm.subset List.mem_cons_self, rfl⟩
  rw [lookup, found]
  dsimp only
  have written : (withLink p key encoded stamp r a).arena.get r = .ok encoded :=
    arena.get_write (coherent.owns_of_alloc reserved) length
  rw [written]

end Inserting

/-- Inserting either fails or puts the bytes under the key. -/
theorem insert (coherent : p.Coherent allowed) {key : Key} (may : allowed key) (absent : p.chains.find? key = none)
    {encoded : Bytes} (long : Item.headerLength ≤ encoded.length) (stamp : UInt64) :
    Steps (Arises allowed) (Coherent allowed) (p.insert key encoded stamp) ∧ ((p.insert key encoded stamp).1 = .ok () →
      (p.insert key encoded stamp).2.lookup key = (Item.decode key encoded).map some) := by
  obtain ⟨steps, found⟩ := coherent.allocEvicting encoded.length
  rw [Partition.insert]
  rcases room : p.allocEvicting encoded.length with ⟨e | r, q⟩
  · rw [room] at steps
    exact ⟨steps.raise steps.kept, by simp⟩
  · rw [room] at steps
    have after := steps.kept
    obtain ⟨q, a, sheds, reserved, result⟩ := found r (by rw [room])
    obtain rfl := (Prod.mk.inj (room.symm.trans result)).2
    have owns := sheds.coherent.owns_of_alloc reserved
    have still : q.chains.find? key = none := by
      rw [sheds.coherent.chains.find?_eq_none_iff]
      exact fun link mem => coherent.chains.find?_eq_none_iff.1 absent link (sheds.links link mem)
    dsimp only
    -- A region says its length in 32 bits, and may so be shorter than what was asked for.
    by_cases length : encoded.length = r.length.toNat
    · rw [Arena.Sound.write_eq after.arena owns length]
      exact ⟨.ok _ (sheds.coherent.withLink_coherent may still long reserved length),
        fun _ => sheds.coherent.lookup_withLink may still long reserved length⟩
    · have refused : a.write r encoded =
          .error (.invalidRegion s!"write of {encoded.length} bytes into region of {r.length} bytes") := by
        rw [Arena.write, after.arena.fault?_eq_none_iff.2 owns]
        exact if_neg length
      rw [refused]
      exact ⟨.error (.length _ _) after, by simp⟩

/-- Restoring the ceiling spares what was written. -/
theorem enforceCeiling {p : Partition} (coherent : p.Coherent allowed) (written : Key) :
    Sheds allowed (some written) p (p.enforceCeiling written).2 ∧
      Steps (Arises allowed) (Coherent allowed) (p.enforceCeiling written) := by
  rw [Partition.enforceCeiling]
  split
  · have evicted := coherent.evictOne (some written)
    split
    · rename_i e q same
      rw [same] at evicted
      exact ⟨evicted.1, evicted.2.raise evicted.2.kept⟩
    · rename_i q same
      rw [same] at evicted
      exact ⟨evicted.1, .ok _ evicted.2.kept⟩
    · rename_i key q same
      rw [same] at evicted
      obtain ⟨sheds, steps⟩ := evicted.1.coherent.enforceCeiling written
      exact ⟨evicted.1.trans sheds, steps⟩
  · exact ⟨.refl coherent, .ok _ coherent⟩
termination_by p.chains.links.length
decreasing_by exact links_evictOne_lt (by assumption)

theorem storeNew (coherent : p.Coherent allowed) {key : Key} (may : allowed key) (absent : p.chains.find? key = none)
    {encoded : Bytes} (long : Item.headerLength ≤ encoded.length) (stamp : UInt64) :
    Steps (Arises allowed) (Coherent allowed) (p.storeNew key encoded stamp) ∧ ((p.storeNew key encoded stamp).1 = .ok () →
      (p.storeNew key encoded stamp).2.lookup key = (Item.decode key encoded).map some) := by
  obtain ⟨steps, stored⟩ := coherent.insert may absent long stamp
  rw [Partition.storeNew]
  rcases inserted : p.insert key encoded stamp with ⟨e | _, q⟩
  · rw [inserted] at steps
    exact ⟨steps, by simp⟩
  · rw [inserted] at steps stored
    obtain ⟨sheds, after⟩ := steps.kept.enforceCeiling key
    exact ⟨after, fun _ => (sheds.spares key rfl).trans (stored rfl)⟩

theorem remove (coherent : p.Coherent allowed) (key : Key) :
    ∃ q, p.remove key = (.ok (p.view key), q) ∧ q.Coherent allowed ∧ q.chains.find? key = none := by
  rw [Partition.remove, coherent.lookup_eq]
  cases shown : p.view key with
  | none => exact ⟨p, rfl, coherent, coherent.find?_of_view shown⟩
  | some old =>
    obtain ⟨q, unlinked, after, gone, -⟩ := coherent.unlink key
    dsimp only
    rw [unlinked]
    exact ⟨q, rfl, after, gone⟩

/-- A write fails, or the key then holds the item under the value drawn. -/
theorem put (coherent : p.Coherent allowed) (clocks : Clocks) {item : Item} (may : allowed item.key) :
    Steps (Arises allowed) (Coherent allowed) ((p.put clocks item).1, (p.put clocks item).2.1) ∧
      ∀ old, (p.put clocks item).1 = .ok old → (p.put clocks item).2.1.view item.key = some (clocks.commit item).1 := by
  rcases Nat.lt_or_ge p.size item.encodedLength with large | fits
  · rw [put_of_large large]
    exact ⟨.error (.space _ _) coherent, by simp⟩
  · obtain ⟨q, removed, after, absent⟩ := coherent.remove item.key
    have long : Item.headerLength ≤ (clocks.commit item).1.encode.length := by
      rw [Item.length_encode, Item.encodedLength]
      omega
    obtain ⟨steps, stored⟩ := after.storeNew may absent long (clocks.commit item).2.1
    rw [Partition.put, checkFits_of_fits fits]
    dsimp only
    rw [clocks.commit_key, removed]
    dsimp only
    rcases result : q.storeNew item.key (clocks.commit item).1.encode (clocks.commit item).2.1 with ⟨e | _, r⟩
    · rw [result] at steps
      exact ⟨steps.raise steps.kept, by simp⟩
    · rw [result] at steps stored
      refine ⟨.ok _ steps.kept, fun _ _ => ?_⟩
      have found := stored rfl
      rw [Item.decode_encode, ← clocks.commit_key item] at found
      rw [view, ← clocks.commit_key item, found]
      rfl

theorem restamped (coherent : p.Coherent allowed) {link : Link} (found : p.chains.find? link.key = some link)
    (stamp : UInt64) : (p.restamped link stamp).Coherent allowed := by
  have perm := coherent.chains.links_restamp_perm found stamp
  have old {other : Link} (there : other ∈ (p.restamped link stamp).chains.links) :
      ∃ before ∈ p.chains.links, before.key = other.key ∧ before.region = other.region := by
    rcases List.mem_cons.1 (perm.subset there) with rfl | kept
    · exact ⟨link, (coherent.chains.find?_eq_some_iff.1 found).1, rfl, rfl⟩
    · exact ⟨other, (coherent.chains.mem_links_erase.1 kept).1, rfl, rfl⟩
  constructor
  · exact coherent.arena
  · exact coherent.chains.restamp link.key stamp
  · intro other there
    obtain ⟨before, mem, -, region⟩ := old there
    exact region ▸ coherent.owns before mem
  · intro one there other also ne
    obtain ⟨before, mem, keyed, region⟩ := old there
    obtain ⟨after, memAfter, keyedAfter, regionAfter⟩ := old also
    rw [← region, ← regionAfter]
    exact coherent.apart before mem after memAfter (by rwa [keyed, keyedAfter])
  · intro other there
    obtain ⟨before, mem, -, region⟩ := old there
    exact region ▸ coherent.whole before mem
  · intro s key queued
    change (p.queue.touch link.stamp stamp).get? s = some key at queued
    unfold Queue.touch at queued
    split at queued
    · rename_i touched named
      rw [Queue.get?_push, Queue.get?_erase] at queued
      split at queued
      · obtain rfl := Option.some.inj queued
        exact coherent.queued _ _ named
      · split at queued
        · cases queued
        · exact coherent.queued s key queued
    · exact coherent.queued s key queued

/-- A read answers what the key holds and moves no value. -/
theorem get (coherent : p.Coherent allowed) (clocks : Clocks) (key : Key) (touch : Bool) :
    ∃ q after, p.get clocks key touch = (.ok (p.view key), q, after) ∧ q.Coherent allowed ∧
      ∀ other, q.view other = p.view other := by
  rw [Partition.get, coherent.lookup_eq]
  split
  · rename_i link item found shown
    obtain rfl := Chains.find?_key found
    rw [← shown]
    cases touch with
    | false => exact ⟨p, clocks, rfl, coherent, fun _ => rfl⟩
    | true =>
      refine ⟨_, _, rfl, coherent.restamped found clocks.drawStamp.1, fun other => ?_⟩
      have same : (p.restamped link clocks.drawStamp.1).lookup other = p.lookup other :=
        lookup_congr (Chains.region_restamp coherent.chains found _) fun _ _ => rfl
      rw [view, view, ← same]
      rfl
  · exact ⟨p, clocks, rfl, coherent, fun _ => rfl⟩

theorem putIfAbsent (coherent : p.Coherent allowed) (clocks : Clocks) {item : Item} (may : allowed item.key) :
    Steps (Arises allowed) (Coherent allowed) ((p.putIfAbsent clocks item).1, (p.putIfAbsent clocks item).2.1) := by
  rw [Partition.putIfAbsent, coherent.lookup_eq]
  cases p.view item.key with
  | some present => exact .ok _ coherent
  | none =>
    obtain ⟨steps, -⟩ := coherent.put clocks may
    rcases result : p.put clocks item with ⟨e | old, q, after⟩
    · rw [result] at steps
      exact steps.raise steps.kept
    · rw [result] at steps
      exact .ok _ steps.kept

/-- A swap of what the key holds is a write; any other swap does nothing. -/
theorem replaceIf (coherent : p.Coherent allowed) (clocks : Clocks) (expected : Item) {item : Item}
    (may : allowed item.key) :
    Steps (Arises allowed) (Coherent allowed)
        ((p.replaceIf clocks expected item).1, (p.replaceIf clocks expected item).2.1) ∧
      (p.view item.key = some expected → (p.replaceIf clocks expected item).1 ≠ .ok false) ∧
      ((p.replaceIf clocks expected item).1 = .ok true →
        (p.replaceIf clocks expected item).2.1.view item.key = some (clocks.commit item).1) := by
  rw [Partition.replaceIf, coherent.lookup_eq]
  dsimp only
  split
  · obtain ⟨steps, stored⟩ := coherent.put clocks may
    rcases result : p.put clocks item with ⟨e | old, q, after⟩
    · rw [result] at steps
      exact ⟨steps.raise steps.kept, by simp, by simp⟩
    · rw [result] at steps stored
      exact ⟨.ok _ steps.kept, by simp, fun _ => stored old rfl⟩
  · rename_i other
    exact ⟨.ok _ coherent, fun same => absurd same other, by simp⟩

theorem removeIf (coherent : p.Coherent allowed) (expected : Item) :
    Steps (Arises allowed) (Coherent allowed) (p.removeIf expected) := by
  rw [Partition.removeIf, coherent.lookup_eq]
  dsimp only
  split
  · obtain ⟨q, unlinked, after, -⟩ := coherent.unlink expected.key
    rw [unlinked]
    exact .ok _ after
  · exact .ok _ coherent

theorem of_empty {q : Partition} (arena : q.arena.Sound) (buckets : q.chains.buckets = ∅) (queue : q.queue = .empty) :
    q.Coherent allowed := by
  have links : q.chains.links = [] := by rw [Chains.links, buckets]; rfl
  refine ⟨arena, .of_empty buckets, ?_, ?_, ?_, ?_⟩
  · simp [links]
  · simp [links]
  · simp [links]
  · simp [queue]

theorem new (buckets arenaBytes blockSize ceiling : Nat) :
    (Partition.new buckets arenaBytes blockSize ceiling).Coherent allowed := of_empty (.new arenaBytes blockSize) rfl rfl

theorem clear (coherent : p.Coherent allowed) : p.clear.Coherent allowed := of_empty coherent.arena.clear rfl rfl

theorem close (p : Partition) : p.close.Coherent allowed := of_empty .close rfl rfl

end Coherent
end Partition
end BlockCache

import BlockCache.Proofs.Partition.Operations

/-!
# Alike partitions

Two partitions are alike if only three things tell them apart: the bytes in their arenas, the clock that
their stamps come from, and the evictions counted so far. Regions, chains and the order of the queue are
the same. No function but `lookup` looks at the bytes, so that what is done to both leaves them alike: the
same runs are reserved, the same entries evicted, and the same errors answered. A partition that was
cleared is in this sense like a new one, whatever its arena still contains.
-/

namespace BlockCache

/-- The first counter has drawn `t` numbers more than the second. -/
def Counter.Later (t : UInt64) (a b : Counter) : Prop := a.issued = b.issued + t.toNat

namespace Counter.Later

variable {t : UInt64} {a b : Counter}

theorem next_fst (later : Later t a b) : a.next.1 = b.next.1 + t := by
  have word (n : Nat) : n.toUInt64.toNat = n % 2 ^ 64 := UInt64.toNat_ofNat'
  have issued : a.issued = b.issued + t.toNat := later
  rw [← UInt64.toNat_inj, UInt64.toNat_add, next, next, word, word, issued]
  omega

theorem next_snd (later : Later t a b) : Later t a.next.2 b.next.2 := by
  have issued : a.issued = b.issued + t.toNat := later
  change a.issued + 1 = b.issued + 1 + t.toNat
  omega

/-- The next numbers of both stay apart by `t` if the greater one fits a word. -/
theorem room (later : Later t a b) (few : a.issued + 1 < UInt64.size) : b.next.1.toNat + t.toNat < UInt64.size := by
  have issued : a.issued = b.issued + t.toNat := later
  have word : b.next.1.toNat = (b.issued + 1) % UInt64.size := UInt64.toNat_ofNat'
  have := Nat.mod_le (b.issued + 1) UInt64.size
  omega

end Counter.Later

/-- The first clocks have drawn `t` stamps and `c` CAS values more than the second. -/
structure Clocks.Later (t c : UInt64) (k l : Clocks) : Prop where
  stamps : k.stamps.Later t l.stamps
  cas : k.cas.Later c l.cas

namespace Clocks.Later

variable {t c : UInt64} {k l : Clocks}

theorem commit (later : Later t c k l) (item : Item) : Later t c (k.commit item).2.2 (l.commit item).2.2 where
  stamps := later.stamps.next_snd
  cas := later.cas.next_snd

theorem drawStamp (later : Later t c k l) : Later t c k.drawStamp.2 l.drawStamp.2 where
  stamps := later.stamps.next_snd
  cas := later.cas

end Clocks.Later

/-- The link with its stamp `t` later. -/
def Link.later (t : UInt64) (link : Link) : Link := { link with stamp := link.stamp + t }

/-- The links of `c` are those of `d` in the same places, with stamps `t` later. -/
structure Chains.Later (t : UInt64) (c d : Chains) : Prop where
  count : c.count = d.count
  bucket : ∀ i : Nat, c.buckets[i]? = d.buckets[i]?.map (List.map (Link.later t))

namespace Chains.Later

variable {t : UInt64} {c d : Chains}

theorem bucketOf (later : Later t c d) (key : Key) : c.bucketOf key = d.bucketOf key := by
  rw [Chains.bucketOf, Chains.bucketOf, later.count]

theorem chain (later : Later t c d) (key : Key) : c.chain key = (d.chain key).map (Link.later t) := by
  rw [Chains.chain, Chains.chain, Std.TreeMap.getD_eq_getD_getElem?, Std.TreeMap.getD_eq_getD_getElem?,
    later.bucketOf, later.bucket]
  cases d.buckets[d.bucketOf key]? <;> rfl

theorem find? (later : Later t c d) (key : Key) : c.find? key = (d.find? key).map (Link.later t) := by
  rw [Chains.find?, later.chain, List.find?_map]
  rfl

theorem setChain (later : Later t c d) (key : Key) {l m : List Link} (links : l = m.map (Link.later t)) :
    Later t (c.setChain key l) (d.setChain key m) where
  count := later.count
  bucket i := by
    simp only [Chains.setChain, Std.TreeMap.getElem?_insert, later.bucketOf, later.bucket, links]
    split <;> rfl

theorem push (later : Later t c d) (link : Link) : Later t (c.push (link.later t)) (d.push link) :=
  later.setChain link.key (by rw [later.chain, List.map_append]; rfl)

theorem erase (later : Later t c d) (key : Key) : Later t (c.erase key) (d.erase key) :=
  later.setChain key (by rw [later.chain, List.eraseP_map]; rfl)

theorem restamp (later : Later t c d) (key : Key) (stamp : UInt64) :
    Later t (c.restamp key (stamp + t)) (d.restamp key stamp) := by
  refine later.setChain key ?_
  rw [later.chain, List.map_map, List.map_map]
  refine List.map_congr_left fun link _ => ?_
  by_cases here : link.key = key <;> simp [Link.later, here]

/-- The links as a list are the same too: both lists go through the buckets in order. -/
theorem links (later : Later t c d) : c.links = d.links.map (Link.later t) := by
  have same : c.buckets.Equiv (d.buckets.map fun _ => List.map (Link.later t)) := by
    refine Std.TreeMap.Equiv.of_forall_constGet?_eq fun i => ?_
    rw [Std.TreeMap.getElem?_map, later.bucket]
  rw [Chains.links, same.toList_eq, Std.TreeMap.toList_map, Chains.links, List.flatMap_map, List.map_flatMap]

theorem of_empty (count : c.count = d.count) (left : c.buckets = ∅) (right : d.buckets = ∅) : Later t c d where
  count := count
  bucket i := by simp [left, right]

end Chains.Later

/-- The keys of `q` are those of `r` under stamps `t` later, all of which fit a word. -/
structure Queue.Later (t : UInt64) (q r : Queue) : Prop where
  get? : ∀ stamp, q.get? (stamp + t) = r.get? stamp
  room : ∀ stamp key, r.get? stamp = some key → stamp.toNat + t.toNat < UInt64.size

namespace Queue.Later

variable {t : UInt64} {q r : Queue}

theorem empty : Later t .empty .empty where
  get? _ := by rw [get?_empty, get?_empty]
  room _ _ held := by
    rw [get?_empty] at held
    cases held

theorem push (later : Later t q r) {stamp : UInt64} (fits : stamp.toNat + t.toNat < UInt64.size) (key : Key) :
    Later t (q.push (stamp + t) key) (r.push stamp key) where
  get? other := by simp [later.get?]
  room other held there := by
    rw [get?_push] at there
    split at there
    · rename_i same
      exact same ▸ fits
    · exact later.room other held there

theorem erase (later : Later t q r) (stamp : UInt64) : Later t (q.erase (stamp + t)) (r.erase stamp) where
  get? other := by simp [later.get?]
  room other held there := by
    rw [get?_erase] at there
    split at there
    · cases there
    · exact later.room other held there

theorem touch (later : Later t q r) (old : UInt64) {stamp : UInt64} (fits : stamp.toNat + t.toNat < UInt64.size) :
    Later t (q.touch (old + t) (stamp + t)) (r.touch old stamp) := by
  rw [Queue.touch, Queue.touch, later.get?]
  cases r.get? old with
  | none => exact later
  | some key => exact (later.erase old).push fits key

/-- Stamps that all are as much later stand in the same order. -/
theorem toNat_add (later : Later t q r) {stamp : UInt64} {key : Key} (held : r.get? stamp = some key) :
    (stamp + t).toNat = stamp.toNat + t.toNat := by
  rw [UInt64.toNat_add]
  exact Nat.mod_eq_of_lt (later.room stamp key held)

/-- The oldest entries of both queues are entries of one key. -/
theorem oldestWhere? (later : Later t q r) (wanted : Key → Bool) :
    q.oldestWhere? wanted = (r.oldestWhere? wanted).map fun entry => (entry.1 + t, entry.2) := by
  have back (stamp : UInt64) : q.get? stamp = r.get? (stamp - t) := by
    rw [← later.get?, UInt64.sub_add_cancel]
  cases found : r.oldestWhere? wanted with
  | none =>
    refine Queue.oldestWhere?_eq_none_iff.2 fun stamp key held => ?_
    rw [back] at held
    exact Queue.oldestWhere?_eq_none_iff.1 found _ key held
  | some entry =>
    obtain ⟨stamp, key⟩ := entry
    have held := Queue.get?_of_oldestWhere? found
    have there : q.get? (stamp + t) = some key := (later.get? stamp).trans held
    have wants := Queue.wanted_of_oldestWhere? found
    cases chosen : q.oldestWhere? wanted with
    | none =>
      rw [Queue.oldestWhere?_eq_none_iff.1 chosen _ key there] at wants
      cases wants
    | some other =>
      obtain ⟨least, owner⟩ := other
      have owned := (back least).symm.trans (Queue.get?_of_oldestWhere? chosen)
      -- Each of the two is least in its own queue, and no stamp wraps, so the bounds compare as numbers.
      have below := UInt64.le_iff_toNat_le.1 (Queue.oldestWhere?_le chosen there wants)
      have above := UInt64.le_iff_toNat_le.1
        (Queue.oldestWhere?_le found owned (Queue.wanted_of_oldestWhere? chosen))
      have whole := later.toNat_add owned
      rw [UInt64.sub_add_cancel] at whole
      rw [later.toNat_add held] at below
      obtain rfl : least = stamp + t := by
        rw [← UInt64.toNat_inj, later.toNat_add held]
        omega
      rw [Queue.get?_of_oldestWhere? chosen] at there
      rw [Option.some.inj there]
      rfl

end Queue.Later

namespace Arena

variable (a : Arena) (tape : Tape)

theorem fault?_withTape (r : Region) : ({ a with tape } : Arena).fault? r = a.fault? r := rfl

/-- What is reserved does not depend on the bytes. -/
theorem alloc_withTape (size : Nat) :
    ({ a with tape } : Arena).alloc size =
      (a.alloc size).map fun reserved => (reserved.1, { reserved.2 with tape }) := by
  have blocks : ({ a with tape } : Arena).blocksFor size = a.blocksFor size := rfl
  have bytes : ({ a with tape } : Arena).freeBytes = a.freeBytes := rfl
  unfold alloc
  dsimp only
  rw [blocks, bytes]
  split
  · rfl
  · split
    · rfl
    · cases a.used.findRun a.totalBlocks (a.blocksFor size) a.searchFrom a.searchFrom 0 <;> rfl

theorem free_withTape (r : Region) :
    ({ a with tape } : Arena).free r = (a.free r).map fun freed => { freed with tape } := by
  rw [free, free, fault?_withTape]
  cases a.fault? r <;> rfl

/-- Whether a write is refused does not depend on the bytes, neither those there nor those written. -/
theorem write_withTape (r : Region) {data other : Bytes} (length : data.length = other.length) :
    ∃ tape', ({ a with tape } : Arena).write r data =
      (a.write r other).map fun written => { written with tape := tape' } := by
  refine ⟨tape.write (a.address r) data, ?_⟩
  rw [write, write, fault?_withTape, length]
  cases a.fault? r with
  | some fault => rfl
  | none =>
    dsimp only
    split <;> rfl

end Arena

namespace Partition

/-- `p` is `q` but for the bytes of the arena, with stamps `t` later and `v` more evictions. -/
structure Alike (t : UInt64) (v : Nat) (p q : Partition) : Prop where
  arena : ∃ tape, p.arena = { q.arena with tape }
  chains : p.chains.Later t q.chains
  queue : p.queue.Later t q.queue
  count : p.count = q.count
  evictions : p.evictions = q.evictions + v
  ceiling : p.ceiling = q.ceiling

/-- Two partitions answer the same and are left alike. -/
structure Agree {α : Type} (t : UInt64) (v : Nat) (a b : Except StoreError α × Partition) : Prop where
  answer : a.1 = b.1
  after : Alike t v a.2 b.2

theorem Agree.eq {α : Type} {t : UInt64} {v : Nat} {a b : Except StoreError α × Partition} (agree : Agree t v a b) :
    ∃ answer p q, a = (answer, p) ∧ b = (answer, q) ∧ Alike t v p q :=
  ⟨b.1, a.2, b.2, by rw [← agree.answer], rfl, agree.after⟩

section Equations

/-- The loop that makes room, without the proof that it ends. -/
theorem allocEvicting_eq (p : Partition) (size : Nat) : p.allocEvicting size =
    match p.arena.alloc size with
    | .ok (region, arena) => (.ok region, { p with arena })
    | .error (.outOfSpace requested available) =>
      match p.evictOne none with
      | (.error e, p) => (.error e, p)
      | (.ok none, p) => (.error (.outOfSpace requested available), p)
      | (.ok (some _), p) => p.allocEvicting size
    | .error e => (.error e, p) := by
  rw [allocEvicting]
  rcases p.evictOne none with ⟨_ | _ | _, _⟩ <;> rfl

/-- The loop that restores the ceiling, without the proof that it ends. -/
theorem enforceCeiling_eq (p : Partition) (written : Key) : p.enforceCeiling written =
    if p.arena.freeBytes < p.ceiling then
      match p.evictOne (some written) with
      | (.error e, p) => (.error e, p)
      | (.ok none, p) => (.ok (), p)
      | (.ok (some _), p) => p.enforceCeiling written
    else (.ok (), p) := by
  rw [enforceCeiling]
  rcases p.evictOne (some written) with ⟨_ | _ | _, _⟩ <;> rfl

/-- What a write that fits leaves. -/
theorem put_eq_storeNew {p q : Partition} {clocks : Clocks} {item : Item} {old : Option Item}
    (fits : item.encodedLength ≤ p.size) (removed : p.remove item.key = (.ok old, q)) :
    (p.put clocks item).2.1 = (q.storeNew item.key (clocks.commit item).1.encode (clocks.commit item).2.1).2 := by
  unfold put
  rw [checkFits_of_fits fits]
  dsimp only
  rw [clocks.commit_key, removed]
  dsimp only
  rcases q.storeNew item.key (clocks.commit item).1.encode (clocks.commit item).2.1 with ⟨e | _, r⟩ <;> rfl

end Equations

namespace Alike

variable {t : UInt64} {v : Nat} {p q : Partition}

theorem keys (alike : Alike t v p q) : p.keys = q.keys := by
  rw [Partition.keys, alike.chains.links, List.map_map]
  rfl

theorem size (alike : Alike t v p q) : p.size = q.size := by
  obtain ⟨tape, same⟩ := alike.arena
  rw [Partition.size, same]
  rfl

theorem freeBytes (alike : Alike t v p q) : p.freeBytes = q.freeBytes := by
  obtain ⟨tape, same⟩ := alike.arena
  rw [Partition.freeBytes, same]
  rfl

theorem usedBytes (alike : Alike t v p q) : p.usedBytes = q.usedBytes := by
  obtain ⟨tape, same⟩ := alike.arena
  rw [Partition.usedBytes, same]
  rfl

theorem unlink (alike : Alike t v p q) (key : Key) : Agree t v (p.unlink key) (q.unlink key) := by
  obtain ⟨tape, same⟩ := alike.arena
  unfold Partition.unlink
  rw [alike.chains.find?]
  cases q.chains.find? key with
  | none => exact ⟨rfl, alike⟩
  | some link =>
    have chains := alike.chains.erase key
    have queue := alike.queue.erase link.stamp
    have count : p.count - 1 = q.count - 1 := by rw [alike.count]
    dsimp only [Option.map, Link.later]
    rw [same, Arena.free_withTape]
    cases q.arena.free link.region with
    | error e => exact ⟨rfl, ⟨tape, rfl⟩, chains, queue, count, alike.evictions, alike.ceiling⟩
    | ok freed => exact ⟨rfl, ⟨tape, rfl⟩, chains, queue, count, alike.evictions, alike.ceiling⟩

theorem victim? (alike : Alike t v p q) (spared : Option Key) :
    p.victim? spared = (q.victim? spared).map fun entry => (entry.1 + t, entry.2) := by
  rw [victim?_eq, victim?_eq, alike.queue.oldestWhere?]

theorem evictOne (alike : Alike t v p q) (spared : Option Key) :
    Agree t v (p.evictOne spared) (q.evictOne spared) := by
  unfold Partition.evictOne
  rw [alike.victim?]
  cases q.victim? spared with
  | none => exact ⟨rfl, alike⟩
  | some entry =>
    obtain ⟨stamp, key⟩ := entry
    obtain ⟨answer, p', q', left, right, after⟩ := (alike.unlink key).eq
    dsimp only [Option.map]
    rw [left, right]
    rcases answer with e | _ | _
    · exact ⟨rfl, after⟩
    · exact ⟨rfl, after.arena, after.chains, after.queue.erase stamp, after.count, after.evictions, after.ceiling⟩
    · have evictions : p'.evictions + 1 = q'.evictions + 1 + v := by
        rw [after.evictions]
        omega
      exact ⟨rfl, after.arena, after.chains, after.queue, after.count, evictions, after.ceiling⟩

/-- Both partitions evict the same entries until there is room, and find it in the same place. -/
theorem allocEvicting {p q : Partition} (alike : Alike t v p q) (size : Nat) :
    Agree t v (p.allocEvicting size) (q.allocEvicting size) := by
  obtain ⟨tape, same⟩ := alike.arena
  -- Both arenas reserve the same run or lack the same room, so one split serves both loops.
  rw [allocEvicting_eq, allocEvicting_eq q, same, Arena.alloc_withTape]
  rcases q.arena.alloc size with e | ⟨region, arena⟩
  · cases e with
    | outOfSpace requested available =>
      obtain ⟨answer, p', q', evicted, chosen, after⟩ := (alike.evictOne none).eq
      dsimp only [Except.map]
      rw [evicted, chosen]
      rcases answer with e | _ | key
      · exact ⟨rfl, after⟩
      · exact ⟨rfl, after⟩
      · exact after.allocEvicting size
    | _ => exact ⟨rfl, alike⟩
  · exact ⟨rfl, ⟨tape, rfl⟩, alike.chains, alike.queue, alike.count, alike.evictions, alike.ceiling⟩
termination_by p.chains.links.length
decreasing_by exact links_evictOne_lt evicted

theorem enforceCeiling {p q : Partition} (alike : Alike t v p q) (written : Key) :
    Agree t v (p.enforceCeiling written) (q.enforceCeiling written) := by
  have free : p.arena.freeBytes = q.arena.freeBytes := alike.freeBytes
  rw [enforceCeiling_eq, enforceCeiling_eq q, free, alike.ceiling]
  split
  · obtain ⟨answer, p', q', evicted, chosen, after⟩ := (alike.evictOne (some written)).eq
    rw [evicted, chosen]
    rcases answer with e | _ | key
    · exact ⟨rfl, after⟩
    · exact ⟨rfl, after⟩
    · exact after.enforceCeiling written
  · exact ⟨rfl, alike⟩
termination_by p.chains.links.length
decreasing_by exact links_evictOne_lt evicted

/-- An entry of as many bytes goes to the same place. -/
theorem insert (alike : Alike t v p q) (key : Key) {encoded other : Bytes} (length : encoded.length = other.length)
    {stamp : UInt64} (fits : stamp.toNat + t.toNat < UInt64.size) :
    Agree t v (p.insert key encoded (stamp + t)) (q.insert key other stamp) := by
  obtain ⟨answer, p', q', left, right, after⟩ := (alike.allocEvicting encoded.length).eq
  unfold Partition.insert
  rw [← length, left, right]
  rcases answer with e | region
  · exact ⟨rfl, after⟩
  · obtain ⟨tape, same⟩ := after.arena
    -- The bytes may differ but are as many, and a write looks at nothing else of them.
    obtain ⟨written, wrote⟩ := q'.arena.write_withTape tape region length
    dsimp only
    rw [same, wrote]
    cases q'.arena.write region other with
    | error e => exact ⟨rfl, after⟩
    | ok arena =>
      have count : p'.count + 1 = q'.count + 1 := congrArg (· + 1) after.count
      exact ⟨rfl, ⟨written, rfl⟩, after.chains.push ⟨key, region, stamp⟩, after.queue.push fits key, count,
        after.evictions, after.ceiling⟩

theorem storeNew (alike : Alike t v p q) (key : Key) {encoded other : Bytes} (length : encoded.length = other.length)
    {stamp : UInt64} (fits : stamp.toNat + t.toNat < UInt64.size) :
    Agree t v (p.storeNew key encoded (stamp + t)) (q.storeNew key other stamp) := by
  obtain ⟨answer, p', q', left, right, after⟩ := (alike.insert key length fits).eq
  unfold Partition.storeNew
  rw [left, right]
  rcases answer with e | _
  · exact ⟨rfl, after⟩
  · exact after.enforceCeiling key

theorem clear (alike : Alike t v p q) : Alike t v p.clear q.clear where
  arena := by
    obtain ⟨tape, same⟩ := alike.arena
    exact ⟨tape, by rw [Partition.clear, same]; rfl⟩
  chains := .of_empty alike.chains.count rfl rfl
  queue := .empty
  count := rfl
  evictions := alike.evictions
  ceiling := alike.ceiling

theorem close (alike : Alike t v p q) : Alike t v p.close q.close where
  arena := by
    obtain ⟨tape, same⟩ := alike.arena
    exact ⟨.blank, by rw [Partition.close, Partition.clear, same]; rfl⟩
  chains := .of_empty alike.chains.count rfl rfl
  queue := .empty
  count := rfl
  evictions := alike.evictions
  ceiling := alike.ceiling

section Sound

variable {k l : Clocks} {c : UInt64} (alike : Alike t v p q) (left : p.Sound k.stamps.issued)
  (right : q.Sound l.stamps.issued)

include alike left right

theorem view_eq_none_iff (key : Key) : p.view key = none ↔ q.view key = none := by
  rw [left.view_eq_none_iff, right.view_eq_none_iff, alike.chains.find?, Option.map_eq_none_iff]

theorem remove (key : Key) : Alike t v (p.remove key).2 (q.remove key).2 := by
  have same := alike.view_eq_none_iff left right key
  unfold Partition.remove
  rw [left.lookup_eq, right.lookup_eq]
  cases held : q.view key with
  | none =>
    rw [same.2 held]
    exact alike
  | some old =>
    obtain ⟨answer, p', q', unlinked, taken, after⟩ := (alike.unlink key).eq
    -- The items may differ, so all that is used is that the key holds one in both.
    obtain ⟨item, shown⟩ := Option.ne_none_iff_exists'.1 fun absent => nomatch held.symm.trans (same.1 absent)
    rw [shown, unlinked, taken]
    cases answer <;> exact after

theorem removeIf {expected other : Item} (keys : expected.key = other.key)
    (same : p.view expected.key = some expected ↔ q.view other.key = some other) :
    Alike t v (p.removeIf expected).2 (q.removeIf other).2 := by
  unfold Partition.removeIf
  rw [left.lookup_eq, right.lookup_eq]
  dsimp only
  by_cases held : q.view other.key = some other
  · rw [if_pos held, if_pos (same.2 held), keys]
    exact (alike.unlink other.key).after
  · rw [if_neg held, if_neg fun shown => held (same.1 shown)]
    exact alike

/-- A write goes to the same place, and evicts the same entries. -/
theorem put (later : k.Later t c l) (item : Item) (few : (p.put k item).2.2.stamps.issued < UInt64.size) :
    Alike t v (p.put k item).2.1 (q.put l item).2.1 := by
  rcases Nat.lt_or_ge p.size item.encodedLength with large | fits
  · rw [put_of_large large, put_of_large (alike.size ▸ large)]
    exact alike
  · rw [put_clocks fits] at few
    obtain ⟨p', removed, -, -⟩ := left.remove item.key
    obtain ⟨q', taken, -, -⟩ := right.remove item.key
    have after := alike.remove left right item.key
    have stamp : (k.commit item).2.1 = (l.commit item).2.1 + t := later.stamps.next_fst
    have length : (k.commit item).1.encode.length = (l.commit item).1.encode.length := by
      rw [Item.length_encode, Item.length_encode]
      rfl
    rw [removed, taken] at after
    rw [put_eq_storeNew fits removed, put_eq_storeNew (alike.size ▸ fits) taken, stamp]
    exact (after.storeNew item.key length (later.stamps.room few)).after

/-- A read that counts gives the links of both partitions the next stamps. -/
theorem get (later : k.Later t c l) (key : Key) (touch : Bool)
    (few : (p.get k key touch).2.2.stamps.issued < UInt64.size) :
    Alike t v (p.get k key touch).2.1 (q.get l key touch).2.1 ∧
      (p.get k key touch).2.2.Later t c (q.get l key touch).2.2 := by
  have same := alike.view_eq_none_iff left right key
  by_cases idle : touch = false ∨ p.view key = none
  · rw [left.get_idle idle, right.get_idle (idle.imp_right same.1)]
    exact ⟨alike, later⟩
  · obtain ⟨touched, shown⟩ := not_or.1 idle
    obtain rfl : touch = true := by simpa using touched
    obtain ⟨link, mem, keyed, read⟩ : ∃ link ∈ p.chains.links, link.key = key ∧
        p.get k key true = (.ok (p.view key), p.restamped link k.drawStamp.1, k.drawStamp.2) :=
      left.get_restamps shown
    obtain ⟨old, held, named, seen⟩ : ∃ link ∈ q.chains.links, link.key = key ∧
        q.get l key true = (.ok (q.view key), q.restamped link l.drawStamp.1, l.drawStamp.2) :=
      right.get_restamps fun absent => shown (same.2 absent)
    have found := alike.chains.find? key
    rw [left.chains.find?_eq_some_iff.2 ⟨mem, keyed⟩, right.chains.find?_eq_some_iff.2 ⟨held, named⟩] at found
    obtain rfl : link = old.later t := Option.some.inj found
    have stamp : k.drawStamp.1 = l.drawStamp.1 + t := later.stamps.next_fst
    rw [read] at few
    rw [read, seen, stamp]
    exact ⟨⟨alike.arena, alike.chains.restamp _ _, alike.queue.touch old.stamp (later.stamps.room few), alike.count,
      alike.evictions, alike.ceiling⟩, later.drawStamp⟩

end Sound

end Alike
end Partition
end BlockCache

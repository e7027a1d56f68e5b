import BlockCache.Proofs.Index.Eviction
import BlockCache.Proofs.Partition.Operations

/-!
# The operations of an index

Each operation acts on the partition of its key, and a write that may have added an item then enforces
the item limit. What the operation does to the partition as a map it does to the index as a map. A write
leaves its own key's entry the youngest, so that the limit never takes back what was just written.
-/

namespace BlockCache.Index

/-- `y` is `x` after a write of `item`, which evicted `gone`. -/
structure Writes (x : Index) (item : Item) (gone : List Key) (y : Index) : Prop where
  view : ∀ key, y.view key = if key = item.key then some item else if key ∈ gone then none else x.view key
  spared : item.key ∉ gone
  stored : ∀ key ∈ gone, x.view key ≠ none
  nodup : gone.Nodup
  links : ∀ link ∈ y.links,
    link ∈ x.links ∧ link.key ≠ item.key ∨ link.key = item.key ∧ link.stamp = x.clocks.stamps.next.1
  evictions : y.evictions = x.evictions + gone.length
  clocks : y.clocks = (x.clocks.commit item).2.2
  shape : x.SameShape y

/-- `y` is `x` without the entry of a key, if it had one. -/
structure Removes (x : Index) (key : Key) (y : Index) : Prop where
  view : ∀ other, y.view other = if other = key then none else x.view other
  links : ∀ link ∈ y.links, link ∈ x.links
  evictions : y.evictions = x.evictions
  clocks : y.clocks = x.clocks
  shape : x.SameShape y

/-- `y` is `x` with other stamps. -/
structure Reads (x y : Index) : Prop where
  view : ∀ key, y.view key = x.view key
  arena : ∀ key, (y.home key).arena = (x.home key).arena
  evictions : y.evictions = x.evictions
  cas : y.clocks.cas = x.clocks.cas
  shape : x.SameShape y

/-- How an item is written: `first` is evicted from its partition to make room, which leads to `y`, and then `second`
for the item limit, which leads to `z`. -/
structure Commits (x : Index) (item : Item) (first : List Key) (y : Index) (second : List Key) (z : Index) : Prop where
  sound : y.Sound
  writes : x.Writes (x.clocks.commit item).1 first y
  youngest : y.Youngest item.key
  evicting : Evicting y second z
  room : ((x.home item.key).put x.clocks item).2.1.evictions = (x.home item.key).evictions + first.length
  limited : x.size ≤ x.maxItems → z.size ≤ z.maxItems

/-- Under a limit that allows one item, the item written stays. -/
theorem Commits.spared {x y z : Index} {item : Item} {first second : List Key}
    (commits : x.Commits item first y second z) (positive : 0 < x.maxItems) : item.key ∉ second :=
  commits.youngest.not_mem commits.sound (commits.writes.shape.maxItems ▸ positive) commits.evicting

/-- A write draws one CAS value and one stamp, and the evictions after it draw nothing. -/
theorem Commits.clocks {x y z : Index} {item : Item} {first second : List Key}
    (commits : x.Commits item first y second z) : z.clocks = (x.clocks.commit item).2.2 := by
  obtain ⟨-, evicts⟩ := commits.sound.evicting commits.evicting
  exact evicts.clocks.trans commits.writes.clocks

/-- A write for which its partition counts no eviction evicts nothing for room. -/
theorem Commits.first_eq_nil {x y z : Index} {item : Item} {first second : List Key}
    (commits : x.Commits item first y second z)
    (room : ((x.home item.key).put x.clocks item).2.1.evictions = (x.home item.key).evictions) : first = [] := by
  have counted := commits.room
  rw [room] at counted
  exact List.length_eq_zero_iff.1 (by omega)

/-- Evictions after a write that spare its key are evictions of the write. -/
theorem Writes.evicts {x y z : Index} {item : Item} {first second : List Key} (writes : x.Writes item first y)
    (evicts : y.Evicts second z) (spared : item.key ∉ second) : x.Writes item (first ++ second) z := by
  have old (key : Key) (mem : key ∈ second) : key ∉ first ∧ x.view key ≠ none := by
    have shown := evicts.stored key mem
    rw [writes.view, if_neg fun same : key = item.key => spared (same ▸ mem)] at shown
    split at shown
    · exact absurd rfl shown
    · rename_i kept
      exact ⟨kept, shown⟩
  refine ⟨fun key => ?_, ?_, fun key mem => ?_, ?_, fun link mem => writes.links link ((evicts.links link).1 mem).1, ?_,
    evicts.clocks.trans writes.clocks, writes.shape.trans evicts.shape⟩
  · rw [evicts.view, writes.view]
    by_cases same : key = item.key
    · subst same
      simp [spared]
    · by_cases inFirst : key ∈ first <;> by_cases inSecond : key ∈ second <;> simp [same, inFirst, inSecond]
  · simp [writes.spared, spared]
  · rcases List.mem_append.1 mem with early | late
    · exact writes.stored key early
    · exact (old key late).2
  · exact List.nodup_append.2 ⟨writes.nodup, evicts.nodup, fun a early b late same => (old b late).1 (same ▸ early)⟩
  · rw [evicts.evictions, writes.evictions, List.length_append]
    omega

theorem place_self (x : Index) (key : Key) : x.place (x.route key) (x.home key) x.clocks = x := by
  have same : x.partitions.set (x.route key).val (x.home key) (x.route key).isLt = x.partitions :=
    Array.set_getElem_self _
  simp only [place, setPartition, same]

theorem put_eq (x : Index) (item : Item) : x.put item =
    match (x.home item.key).put x.clocks item with
    | (.error e, p, clocks) => (.error e, x.place (x.route item.key) p clocks)
    | (.ok old, p, clocks) =>
      match (x.place (x.route item.key) p clocks).enforceItemLimit with
      | (.error e, y) => (.error e, y)
      | (.ok (), y) => (.ok old, y) := by
  unfold Index.put home
  dsimp only
  rcases x.partitions[x.route item.key].put x.clocks item with ⟨e | old, p, clocks⟩ <;> rfl

theorem putIfAbsent_eq (x : Index) (item : Item) : x.putIfAbsent item =
    match (x.home item.key).putIfAbsent x.clocks item with
    | (.error e, p, clocks) => (.error e, x.place (x.route item.key) p clocks)
    | (.ok (some present), p, clocks) => (.ok (some present), x.place (x.route item.key) p clocks)
    | (.ok none, p, clocks) =>
      match (x.place (x.route item.key) p clocks).enforceItemLimit with
      | (.error e, y) => (.error e, y)
      | (.ok (), y) => (.ok none, y) := by
  unfold Index.putIfAbsent home
  dsimp only
  rcases x.partitions[x.route item.key].putIfAbsent x.clocks item with ⟨e | _ | present, p, clocks⟩ <;> rfl

section Clocks

variable (x : Index)

theorem evictOldest_clocks : x.evictOldest.2.clocks = x.clocks := by
  rw [evictOldest]
  split <;> rfl

theorem enforceItemLimit_clocks (x : Index) : x.enforceItemLimit.2.clocks = x.clocks := by
  rw [enforceItemLimit]
  have same := x.evictOldest_clocks
  split
  · split
    · rename_i evicted
      simpa [evicted] using same
    · rename_i evicted
      simpa [evicted] using same
    · rename_i y evicted
      exact (enforceItemLimit_clocks y).trans (by simpa [evicted] using same)
  · rfl
termination_by x.linkCount
decreasing_by exact linkCount_evictOldest_lt (by assumption)

theorem put_clocks (item : Item) : (x.put item).2.clocks = ((x.home item.key).put x.clocks item).2.2 := by
  rw [put_eq]
  rcases (x.home item.key).put x.clocks item with ⟨e | old, p, clocks⟩
  · rfl
  · have same : (x.place (x.route item.key) p clocks).enforceItemLimit.2.clocks = clocks := enforceItemLimit_clocks _
    dsimp only
    split
    · rename_i limited
      simpa [limited] using same
    · rename_i limited
      simpa [limited] using same

end Clocks

theorem put_of_large {x : Index} {item : Item} (large : (x.home item.key).size < item.encodedLength) :
    x.put item = (.error (.outOfSpace item.encodedLength (x.home item.key).freeBytes), x) := by
  rw [put_eq, Partition.put_of_large large]
  exact congrArg (Prod.mk _) (x.place_self item.key)

/-- An item that was stored has a length that is a 32-bit word, however large the arenas are. -/
theorem short_of_put {x : Index} {item : Item} {old : Option Item} (accepted : (x.put item).1 = .ok old) :
    item.encodedLength < UInt32.size := by
  rw [put_eq] at accepted
  rcases stored : (x.home item.key).put x.clocks item with ⟨e | held, q, clocks⟩
  · rw [stored] at accepted
    cases accepted
  · exact Partition.short_of_put (congrArg Prod.fst stored)

namespace Sound

variable {x : Index}

theorem stamps (sound : x.Sound) {link : Link} (mem : link ∈ x.links) : link.stamp.toNat ≤ x.clocks.stamps.issued :=
  (sound.home link.key).stamps link (sound.mem_links_iff.1 mem)

section Placing

variable (sound : x.Sound) (item : Item) {gone : List Key} {q : Partition}
  (after : q.Sound (x.clocks.commit item).2.2.stamps.issued)
  (writes : (x.home item.key).Writes item x.clocks.stamps.next.1 gone q)

include sound writes

theorem view_place_of_writes (clocks : Clocks) (key : Key) : (x.place (x.route item.key) q clocks).view key =
    if key = item.key then some item else if key ∈ gone then none else x.view key := by
  rw [view_place]
  split
  · rename_i home
    rw [writes.view, ← home_congr home]
    rfl
  · rename_i other
    rw [if_neg fun same : key = item.key => other (congrArg x.route same), if_neg]
    exact fun mem => other (sound.route_eq_of_view (writes.stored key mem))

include after

theorem place_of_writes : (x.place (x.route item.key) q (x.clocks.commit item).2.2).Sound := by
  refine sound.place after (Nat.le_succ _) fun link mem => ?_
  rcases writes.links link mem with ⟨old, -⟩ | ⟨same, -⟩
  · exact Fin.val_inj.1 (sound.routed (x.getElem?_home item.key) link old)
  · rw [same]

/-- Every link of the index was there before, but for that of the written key. -/
theorem links_place_of_writes {link : Link}
    (mem : link ∈ (x.place (x.route item.key) q (x.clocks.commit item).2.2).links) :
    link ∈ x.links ∧ link.key ≠ item.key ∨ link.key = item.key ∧ link.stamp = x.clocks.stamps.next.1 := by
  have placed := sound.place_of_writes item after writes
  by_cases here : link.key = item.key
  · have there : link ∈ q.chains.links := by
      rw [placed.mem_links_iff, home_place, here, if_pos rfl] at mem
      exact mem
    rcases writes.links link there with ⟨-, other⟩ | new
    · exact absurd here other
    · exact .inr new
  · rcases mem_links_place x _ q _ mem with inside | old
    · rcases writes.links link inside with ⟨old, -⟩ | ⟨same, -⟩
      · exact .inl ⟨mem_links.2 ⟨_, _, x.getElem?_home item.key, old⟩, here⟩
      · exact absurd same here
    · exact .inl ⟨old, here⟩

/-- The entry of the written key is the youngest: its stamp was drawn last. -/
theorem youngest_place (fresh : x.clocks.stamps.issued < x.clocks.stamps.next.1.toNat) :
    (x.place (x.route item.key) q (x.clocks.commit item).2.2).Youngest item.key := by
  have placed := sound.place_of_writes item after writes
  have shown := sound.view_place_of_writes item writes (x.clocks.commit item).2.2 item.key
  rw [if_pos rfl] at shown
  obtain ⟨link, mem, keyed⟩ := placed.view_ne_none_iff.1 (shown ▸ Option.some_ne_none item)
  have stamped : link.stamp = x.clocks.stamps.next.1 := by
    rcases sound.links_place_of_writes item after writes mem with ⟨-, other⟩ | ⟨-, same⟩
    · exact absurd keyed other
    · exact same
  refine ⟨link, mem, keyed, fun other held ne => ?_⟩
  rcases sound.links_place_of_writes item after writes held with ⟨old, -⟩ | ⟨same, -⟩
  · rw [stamped, UInt64.lt_iff_toNat_lt]
    exact Nat.lt_of_le_of_lt (sound.stamps old) fresh
  · exact absurd same ne

/-- What is written to the partition of a key is written to the index, and the key's entry is the youngest. -/
theorem writes_place (fresh : x.clocks.stamps.issued < x.clocks.stamps.next.1.toNat) :
    let y := x.place (x.route item.key) q (x.clocks.commit item).2.2
    y.Sound ∧ x.Writes item gone y ∧ y.Youngest item.key := by
  intro y
  refine ⟨sound.place_of_writes item after writes, ?_, sound.youngest_place item after writes fresh⟩
  constructor
  · exact sound.view_place_of_writes item writes _
  · exact writes.spared
  · intro key mem
    have stored := writes.stored key mem
    rwa [Index.view, home_congr (sound.route_eq_of_view stored)]
  · exact writes.nodup
  · exact fun link => sound.links_place_of_writes item after writes
  · have sum : y.evictions + (x.home item.key).evictions = x.evictions + q.evictions :=
      x.total_place (x.route item.key) q (x.clocks.commit item).2.2 (·.evictions)
    have evictions := writes.evictions
    omega
  · rfl
  · exact sameShape_place _ writes.size

end Placing

/-- A write of an item that fits answers what its key held: the item is added, the youngest of all, and
then the item limit is enforced. -/
theorem put (sound : x.Sound) {item : Item} (fits : item.encodedLength ≤ (x.home item.key).size)
    (short : item.encodedLength < UInt32.size) (few : (x.put item).2.clocks.stamps.issued < UInt64.size) :
    ∃ first y second z, x.Commits item first y second z ∧ x.put item = (.ok (x.view item.key), z) := by
  rw [put_clocks] at few
  obtain ⟨first, q, stored, after, writes⟩ := (sound.home item.key).put fits short few
  rw [Partition.put_clocks fits] at few
  have stamp : x.clocks.stamps.next.1.toNat = _ := x.clocks.commit_stamp item few
  let y := x.place (x.route item.key) q (x.clocks.commit item).2.2
  obtain ⟨placed, written, youngest⟩ : y.Sound ∧ x.Writes (x.clocks.commit item).1 first y ∧ y.Youngest item.key :=
    sound.writes_place (x.clocks.commit item).1 after writes (by
      rw [stamp]
      exact Nat.lt_succ_self _)
  obtain ⟨second, z, run, limited, holds⟩ := placed.enforceItemLimit
  refine ⟨first, y, second, z, ⟨placed, written, youngest, run, ?_, fun _ => holds⟩, ?_⟩
  · rw [stored]
    exact writes.evictions
  · rw [put_eq, stored]
    dsimp only
    rw [limited]
    rfl

theorem putIfAbsent_of_present (sound : x.Sound) {item present : Item} (shown : x.view item.key = some present) :
    x.putIfAbsent item = (.ok (some present), x) := by
  rw [putIfAbsent_eq, (sound.home item.key).putIfAbsent_of_present shown]
  exact congrArg (Prod.mk _) (x.place_self item.key)

theorem putIfAbsent_of_absent (sound : x.Sound) {item : Item} (absent : x.view item.key = none) :
    x.putIfAbsent item = ((x.put item).1.map fun _ => none, (x.put item).2) := by
  rw [putIfAbsent_eq, put_eq, (sound.home item.key).putIfAbsent_of_absent absent]
  rcases (x.home item.key).put x.clocks item with ⟨e | old, q, clocks⟩
  · rfl
  · dsimp only [Except.map]
    rcases (x.place (x.route item.key) q clocks).enforceItemLimit with ⟨e | _, y⟩ <;> rfl

theorem replace_of_other (sound : x.Sound) {expected item : Item} (other : x.view item.key ≠ some expected) :
    x.replace expected item = (.ok false, x) := by
  unfold Index.replace
  dsimp only
  rw [show x.partitions[x.route item.key].replaceIf x.clocks expected item = _ from
    (sound.home item.key).replaceIf_of_other other]
  split
  · exact congrArg (Prod.mk _) (x.place_self item.key)
  · rfl

theorem replace_of_same (sound : x.Sound) {expected item : Item} (same : x.view item.key = some expected) :
    x.replace expected item = (((x.home item.key).put x.clocks item).1.map fun _ => true,
      x.place (x.route item.key) ((x.home item.key).put x.clocks item).2.1 ((x.home item.key).put x.clocks item).2.2) := by
  unfold Index.replace
  rw [if_pos (sound.key_of_view same)]
  dsimp only
  rw [show x.partitions[x.route item.key].replaceIf x.clocks expected item = _ from
    (sound.home item.key).replaceIf_of_same same]
  rfl

theorem short_of_replace (sound : x.Sound) {expected item : Item} (same : x.view item.key = some expected) {did : Bool}
    (accepted : (x.replace expected item).1 = .ok did) : item.encodedLength < UInt32.size := by
  rw [sound.replace_of_same same] at accepted
  rcases stored : (x.home item.key).put x.clocks item with ⟨e | held, q, clocks⟩
  · rw [stored] at accepted
    cases accepted
  · exact Partition.short_of_put (congrArg Prod.fst stored)

theorem replace_of_large (sound : x.Sound) {expected item : Item} (same : x.view item.key = some expected)
    (large : (x.home item.key).size < item.encodedLength) :
    x.replace expected item = (.error (.outOfSpace item.encodedLength (x.home item.key).freeBytes), x) := by
  rw [sound.replace_of_same same, Partition.put_of_large large]
  exact congrArg (Prod.mk _) (x.place_self item.key)

/-- A swap of what the key holds is a write, after which no more keys hold items than before. -/
theorem replace_commits (sound : x.Sound) {expected item : Item} (same : x.view item.key = some expected)
    (fits : item.encodedLength ≤ (x.home item.key).size) (short : item.encodedLength < UInt32.size)
    (few : (x.replace expected item).2.clocks.stamps.issued < UInt64.size) :
    ∃ gone y, x.Commits item gone y [] y ∧ x.replace expected item = (.ok true, y) := by
  rw [sound.replace_of_same same] at few ⊢
  obtain ⟨gone, q, stored, after, writes⟩ := (sound.home item.key).put fits short few
  have few : (x.clocks.commit item).2.2.stamps.issued < UInt64.size := by
    rwa [← Partition.put_clocks fits]
  have stamp : x.clocks.stamps.next.1.toNat = _ := x.clocks.commit_stamp item few
  obtain ⟨placed, written, youngest⟩ := sound.writes_place (x.clocks.commit item).1 after writes (by
    rw [stamp]
    exact Nat.lt_succ_self _)
  refine ⟨gone, _, ⟨placed, written, youngest, .done _, ?_, fun limited => Nat.le_trans ?_ limited⟩, ?_⟩
  · rw [stored]
    exact writes.evictions
  · refine sound.size_le placed fun key shown => ?_
    rw [written.view] at shown
    split at shown
    · rename_i here
      rw [here]
      exact same ▸ Option.some_ne_none expected
    · split at shown
      · exact absurd rfl shown
      · exact shown
  · rw [stored]
    rfl

theorem get_answer (sound : x.Sound) (key : Key) : (x.get key).1 = .ok (x.view key) :=
  (sound.home key).get_answer key x.policy.refreshesOnRead

/-- A read changes nothing but stamps. -/
theorem get (sound : x.Sound) (key : Key) (few : (x.get key).2.clocks.stamps.issued < UInt64.size) :
    ∃ y, x.get key = (.ok (x.view key), y) ∧ y.Sound ∧ x.Reads y := by
  obtain ⟨q, clocks, read, after, later, cas, reads⟩ := (sound.home key).get key x.policy.refreshesOnRead few
  have routed (link : Link) (mem : link ∈ q.chains.links) : x.route link.key = x.route key := by
    obtain ⟨old, held, same⟩ := reads.links link mem
    rw [← same]
    exact Fin.val_inj.1 (sound.routed (x.getElem?_home key) old held)
  refine ⟨x.place (x.route key) q clocks, ?_, sound.place after later routed, fun other => ?_, fun other => ?_, ?_,
    cas, sameShape_place _ ?_⟩
  · unfold Index.get
    dsimp only
    rw [show x.partitions[x.route key].get x.clocks key _ = _ from read]
    rfl
  · rw [view_place]
    split
    · rename_i home
      rw [reads.view, ← home_congr home]
      rfl
    · rfl
  · rw [home_place]
    split
    · rename_i home
      rw [reads.arena, home_congr home]
    · rfl
  · have sum : (x.place (x.route key) q clocks).evictions + (x.home key).evictions = x.evictions + q.evictions :=
      x.total_place (x.route key) q clocks (·.evictions)
    have same := reads.evictions
    omega
  · exact congrArg Arena.size reads.arena

/-- A read that does not count, or finds nothing, changes nothing. -/
theorem get_idle (sound : x.Sound) {key : Key} (idle : x.policy.refreshesOnRead = false ∨ x.view key = none) :
    x.get key = (.ok (x.view key), x) := by
  unfold Index.get
  dsimp only
  rw [show x.partitions[x.route key].get x.clocks key x.policy.refreshesOnRead = _ from (sound.home key).get_idle idle]
  exact congrArg (Prod.mk _) (x.place_self key)

/-- A read that counts gives the key's link the next stamp. -/
theorem get_restamps (sound : x.Sound) {key : Key} (refreshes : x.policy.refreshesOnRead = true)
    (shown : x.view key ≠ none) (few : (x.get key).2.clocks.stamps.issued < UInt64.size) :
    (x.get key).2.clocks = x.clocks.drawStamp.2 ∧ ∀ link ∈ (x.get key).2.links,
      link ∈ x.links ∧ link.key ≠ key ∨ link.key = key ∧ link.stamp = x.clocks.stamps.next.1 := by
  have home := sound.home key
  obtain ⟨old, mem, rfl, read⟩ := home.get_restamps shown
  have step : (x.get old.key).2 =
      x.place (x.route old.key) ((x.home old.key).restamped old x.clocks.stamps.next.1) x.clocks.drawStamp.2 := by
    unfold Index.get
    dsimp only
    rw [refreshes, show x.partitions[x.route old.key].get x.clocks old.key true = _ from read]
    rfl
  obtain ⟨y, answer, after, -⟩ := sound.get old.key few
  obtain rfl : y = (x.get old.key).2 := by rw [answer]
  rw [step] at after ⊢
  refine ⟨rfl, fun link there => ?_⟩
  by_cases here : link.key = old.key
  · rw [after.mem_links_iff, home_place, here, if_pos rfl, home.mem_links_restamped mem] at there
    rcases there with rfl | ⟨-, other⟩
    · exact .inr ⟨rfl, rfl⟩
    · exact absurd here other
  · rcases mem_links_place x _ _ _ there with inside | before
    · rcases (home.mem_links_restamped mem _).1 inside with rfl | ⟨before, -⟩
      · exact absurd rfl here
      · exact .inl ⟨mem_links.2 ⟨_, _, x.getElem?_home old.key, before⟩, here⟩
    · exact .inl ⟨before, here⟩

/-- What is removed from the partition of a key is removed from the index. -/
theorem removes_place (sound : x.Sound) {key : Key} {q : Partition} (after : q.Sound x.clocks.stamps.issued)
    (removes : (x.home key).Removes key q) :
    (x.place (x.route key) q x.clocks).Sound ∧ x.Removes key (x.place (x.route key) q x.clocks) := by
  have routed (link : Link) (mem : link ∈ q.chains.links) : x.route link.key = x.route key :=
    Fin.val_inj.1 (sound.routed (x.getElem?_home key) link ((removes.links link).1 mem).1)
  refine ⟨sound.place after (Nat.le_refl _) routed, fun other => ?_, fun link mem => ?_, ?_, rfl,
    sameShape_place _ removes.size⟩
  · rw [view_place]
    split
    · rename_i home
      rw [removes.view, ← home_congr home]
      rfl
    · rename_i elsewhere
      rw [if_neg fun same : other = key => elsewhere (congrArg x.route same)]
  · rcases mem_links_place x _ q _ mem with inside | old
    · exact mem_links.2 ⟨_, _, x.getElem?_home key, ((removes.links link).1 inside).1⟩
    · exact old
  · have sum : (x.place (x.route key) q x.clocks).evictions + (x.home key).evictions = x.evictions + q.evictions :=
      x.total_place (x.route key) q x.clocks (·.evictions)
    have same := removes.evictions
    omega

/-- Removing a key answers what it held. -/
theorem remove (sound : x.Sound) (key : Key) :
    ∃ y, x.remove key = (.ok (x.view key), y) ∧ y.Sound ∧ x.Removes key y := by
  obtain ⟨q, removed, after, removes⟩ := (sound.home key).remove key
  obtain ⟨placed, gone⟩ := sound.removes_place after removes
  refine ⟨_, ?_, placed, gone⟩
  unfold Index.remove
  dsimp only
  rw [show x.partitions[x.route key].remove key = _ from removed]
  rfl

theorem removeIf_of_other (sound : x.Sound) {expected : Item} (other : x.view expected.key ≠ some expected) :
    x.removeIf expected = (.ok false, x) := by
  unfold Index.removeIf
  dsimp only
  have same := (sound.home expected.key).removeIf_of_other other
  rw [show x.partitions[x.route expected.key].removeIf expected = _ from same]
  exact congrArg (Prod.mk _) (x.place_self expected.key)

theorem removeIf_of_same (sound : x.Sound) {expected : Item} (same : x.view expected.key = some expected) :
    ∃ y, x.removeIf expected = (.ok true, y) ∧ y.Sound ∧ x.Removes expected.key y := by
  obtain ⟨q, removed, after, removes⟩ := (sound.home expected.key).removeIf_of_same same
  obtain ⟨placed, gone⟩ := sound.removes_place after removes
  refine ⟨_, ?_, placed, gone⟩
  unfold Index.removeIf
  dsimp only
  rw [show x.partitions[x.route expected.key].removeIf expected = _ from removed]
  rfl

end Sound

/-- `y` is `x` without any entry. -/
structure Empties (x y : Index) : Prop where
  view : ∀ key, y.view key = none
  evictions : y.evictions = x.evictions
  clocks : y.clocks = x.clocks
  policy : y.policy = x.policy
  maxItems : y.maxItems = x.maxItems

section Map

variable {x y : Index} {f : Partition → Partition}

theorem home_of_map (partitions : y.partitions = x.partitions.map f) (key : Key) : y.home key = f (x.home key) := by
  have route : (y.route key).val = (x.route key).val := by
    change key.hash.toNat % _ = key.hash.toNat % _
    rw [partitions, Array.size_map]
  have held := y.getElem?_home key
  rw [route, partitions, Array.getElem?_map, getElem?_home] at held
  exact (Option.some.inj held).symm

theorem total_of_map (partitions : y.partitions = x.partitions.map f) {figure : Partition → Nat}
    (same : ∀ p, figure (f p) = figure p) : y.total figure = x.total figure := by
  rw [total_eq_sum, total_eq_sum, partitions, Array.toList_map, List.map_map]
  exact congrArg List.sum (List.map_congr_left fun p _ => same p)

/-- An index whose partitions are all empty and sound is sound. -/
theorem Sound.of_map (partitions : y.partitions = x.partitions.map f)
    (each : ∀ {i : Nat} {p : Partition}, x.partitions[i]? = some p → (f p).Sound 0)
    (empty : ∀ p, (f p).chains.buckets = ∅) : y.Sound where
  each := by
    intro i q held
    rw [partitions, Array.getElem?_map] at held
    obtain ⟨p, old, rfl⟩ := Option.map_eq_some_iff.1 held
    exact (each old).mono (Nat.zero_le _)
  routed := by
    intro i q held link mem
    rw [partitions, Array.getElem?_map] at held
    obtain ⟨p, -, rfl⟩ := Option.map_eq_some_iff.1 held
    rw [Chains.links, empty] at mem
    cases mem

end Map

theorem Sound.clear {x : Index} (sound : x.Sound) : x.clear.Sound ∧ x.Empties x.clear ∧ x.SameShape x.clear := by
  have home (key : Key) : x.clear.home key = (x.home key).clear := home_of_map rfl key
  refine ⟨.of_map rfl (fun held => (sound.each held).clear) fun _ => rfl,
    ⟨fun key => ?_, total_of_map (f := Partition.clear) rfl fun _ => rfl, rfl, rfl, rfl⟩,
    ⟨rfl, rfl, Array.size_map, fun key => ?_⟩⟩
  · rw [view, home]
    exact Partition.view_of_empty rfl key
  · rw [home]
    rfl

theorem Sound.close (x : Index) :
    x.close.Sound ∧ x.Empties x.close ∧ ∀ key, (x.close.home key).size = 0 := by
  have home (key : Key) : x.close.home key = (x.home key).close := home_of_map rfl key
  refine ⟨.of_map rfl (fun {_ p} _ => .close p) fun _ => rfl,
    ⟨fun key => ?_, total_of_map (f := Partition.close) rfl fun _ => rfl, rfl, rfl, rfl⟩, fun key => ?_⟩
  · rw [view, home]
    exact Partition.view_of_empty rfl key
  · rw [home]
    exact Nat.zero_mul _

/-- The partitions of a new index are empty and all alike. -/
theorem home_new (s : StorageSettings) (key : Key) :
    (new s).home key = .new s.bucketsPerPartition s.partitionBytes s.blockSize s.ceilingBytes := by
  simp [home, new]

theorem Sound.new (s : StorageSettings) : (Index.new s).Sound where
  each := by
    intro i p held
    obtain ⟨-, rfl⟩ : i < max s.partitions 1 ∧ Partition.new _ _ _ _ = p := by
      simpa [Index.new, Array.getElem?_replicate] using held
    exact .new _ _ _ _
  routed := by
    intro i p held link mem
    obtain ⟨-, rfl⟩ : i < max s.partitions 1 ∧ Partition.new _ _ _ _ = p := by
      simpa [Index.new, Array.getElem?_replicate] using held
    cases mem

/-- Every arena is so small that the length of an item in it is a 32-bit word. -/
def Small (x : Index) : Prop := ∀ key, (x.home key).size < UInt32.size

theorem SameShape.small {x y : Index} (shape : x.SameShape y) (small : x.Small) : y.Small := fun key => by
  rw [shape.room]
  exact small key

theorem small_new {s : StorageSettings} (small : s.partitionBytes < UInt32.size) : (Index.new s).Small := fun key => by
  rw [home_new]
  exact Nat.lt_of_le_of_lt (Partition.size_new_le _ _ _ _) small

theorem view_new (s : StorageSettings) (key : Key) : (new s).view key = none := by
  rw [view, home_new]
  exact Partition.view_of_empty rfl key

theorem evictions_new (s : StorageSettings) : (new s).evictions = 0 := by
  have none_yet (n : Nat) (p : Partition) (zero : p.evictions = 0) :
      ((List.replicate n p).map (·.evictions)).sum = 0 := by
    simp [zero]
  rw [evictions, total_eq_sum, new, Array.toList_replicate]
  exact none_yet _ _ rfl

end BlockCache.Index

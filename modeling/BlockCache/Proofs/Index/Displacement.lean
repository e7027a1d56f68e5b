import BlockCache.Proofs.Index.Order
import BlockCache.Proofs.Partition.Displacement

/-!
# What a write displaces

Three loops evict for one write: the oldest entries of the key's partition go until there is room for the item, the
oldest of those left until its free bytes reach the ceiling, and then the oldest of all partitions until the item
limit holds. Each takes the shortest front that does, and what is not taken stays as it was. A new index holds
the item limit and has distinct stamps, and every operation keeps both, so this is how every write of every run
comes out.
-/

open scoped List

namespace BlockCache.Index

/-- What a write of an item that leads to `z` displaces: `first` for the room that its entry needs, `second` for the
ceiling of its partition, and `third` for the item limit. -/
structure Displaces (x : Index) (item : Item) (entry : Link) (first second third : List Link) (z : Index) : Prop where
  home : (x.home item.key).Displaces item.key item.encodedLength entry first second
  stamp : entry.stamp = x.clocks.stamps.next.1
  limit : Shortest (fun links => links.length ≤ x.maxItems)
    (oldestFirst (entry :: x.links.filter fun link => link.key ≠ item.key ∧ link ∉ first ++ second)) third
  /-- The new entry is there, and everything else that was not displaced is there as it was. -/
  links : z.links ~ entry :: x.links.filter fun link => link.key ≠ item.key ∧ link ∉ first ++ second ++ third
  view : ∀ key, z.view key = if key = item.key then some { item with cas := x.clocks.cas.next.1 }
    else if key ∈ (first ++ second ++ third).map (·.key) then none else x.view key
  evictions : z.evictions = x.evictions + (first.length + second.length + third.length)
  restored : (z.home item.key).ceiling ≤ (z.home item.key).freeBytes ∨
    ∀ link ∈ (z.home item.key).chains.links, link.key = item.key

/-- What every index that a run leads to has besides being sound. -/
structure Settled (x : Index) : Prop where
  distinct : Distinct x.links
  limited : x.size ≤ x.maxItems

namespace Sound

variable {x y z : Index} {item : Item}

theorem without_evictOldest (sound : x.Sound) {victim : Key} (evicted : x.evictOldest = (.ok (some victim), y))
    (key : Key) : ∃ taken, (x.home key).Without taken (y.home key) := by
  unfold Index.evictOldest at evicted
  split at evicted
  · cases evicted
  · rename_i i _
    have here : x.partitions[i.val]? = some x.partitions[i] := by simp
    unfold Partition.evictOldest at evicted
    rcases (sound.each here).evictOne none with ⟨-, same⟩ | ⟨_, _, q, -, taken, -, without, -⟩
    · rw [same] at evicted
      cases evicted
    · rw [taken] at evicted
      obtain rfl : x.place i q x.clocks = y := congrArg Prod.snd evicted
      rw [home_place]
      split
      · rename_i home
        rw [← home] at without
        exact ⟨_, without⟩
      · exact ⟨[], .refl _⟩

/-- Evictions over all partitions take entries out of each. -/
theorem without_evicting (sound : x.Sound) {gone : List Key} (run : Evicting x gone y) (key : Key) :
    ∃ taken, (x.home key).Without taken (y.home key) := by
  induction run with
  | done x => exact ⟨[], .refl _⟩
  | step _ evicted _ ih =>
    obtain ⟨first, here⟩ := sound.without_evictOldest evicted key
    obtain ⟨later, there⟩ := ih (sound.of_evictOldest evicted).1
    exact ⟨first ++ later, here.trans there⟩

/-- The links after a write are the new entry and those that were not displaced. -/
theorem mem_links_place_of_displaces (sound : x.Sound) {entry : Link} {first second : List Link}
    (displaces : (x.home item.key).Displaces item.key item.encodedLength entry first second) {q : Partition} {clocks : Clocks}
    (placed : (x.place (x.route item.key) q clocks).Sound)
    (links : q.chains.links ~ entry ::
      (((x.home item.key).candidates (some item.key)).drop first.length).drop second.length) (link : Link) :
    link ∈ (x.place (x.route item.key) q clocks).links ↔
      link = entry ∨ link ∈ x.links ∧ link.key ≠ item.key ∧ link ∉ first ++ second := by
  have home := sound.home item.key
  have entryKey : entry.key = item.key := displaces.keyed
  rw [placed.mem_links_iff, home_place, sound.mem_links_iff]
  split
  · rename_i here
    rw [home_congr here, links.mem_iff, List.mem_cons]
    exact or_congr_right (displaces.mem_left_iff home)
  · rename_i elsewhere
    have ne : link.key ≠ item.key := fun same => elsewhere (congrArg x.route same)
    have displaced : link ∉ first ++ second := fun mem =>
      elsewhere (Fin.val_inj.1 (sound.routed (x.getElem?_home item.key) link (displaces.mem_of_displaced mem)))
    constructor
    · exact fun mem => .inr ⟨mem, ne, displaced⟩
    · rintro (rfl | ⟨mem, -⟩)
      · exact absurd entryKey ne
      · exact mem

/-- After a write the links are the new entry and those of other keys that were not displaced. -/
theorem links_place_of_displaces (sound : x.Sound) {entry : Link} {first second : List Link}
    (displaces : (x.home item.key).Displaces item.key item.encodedLength entry first second) {q : Partition} {clocks : Clocks}
    (placed : (x.place (x.route item.key) q clocks).Sound)
    (left : q.chains.links ~ entry ::
      (((x.home item.key).candidates (some item.key)).drop first.length).drop second.length) :
    (x.place (x.route item.key) q clocks).links ~
      entry :: x.links.filter fun link => link.key ≠ item.key ∧ link ∉ first ++ second := by
  have entryKey : entry.key = item.key := displaces.keyed
  refine (List.perm_ext_iff_of_nodup placed.nodup_links ?_).2 fun link => ?_
  · exact List.nodup_cons.2 ⟨by simp [entryKey], sound.nodup_links.filter _⟩
  · rw [sound.mem_links_place_of_displaces displaces placed left, List.mem_cons, List.mem_filter, decide_eq_true_eq]

/-- What the item limit takes is displaced too, and the new entry is not. -/
theorem links_of_shortest (sound : x.Sound) (placed : y.Sound) (final : z.Sound) {key : Key} {entry : Link}
    (keyed : entry.key = key) {gone third : List Link} {goal : List Link → Prop}
    (split : y.links ~ entry :: x.links.filter fun link => link.key ≠ key ∧ link ∉ gone)
    (limit : Shortest goal (oldestFirst y.links) third)
    (rest : (oldestFirst y.links).drop third.length = oldestFirst z.links) (stays : entry ∉ third) :
    z.links ~ entry :: x.links.filter fun link => link.key ≠ key ∧ link ∉ gone ++ third := by
  have nodup : (oldestFirst y.links).Nodup := (oldestFirst_perm _).nodup_iff.2 placed.nodup_links
  refine (List.perm_ext_iff_of_nodup final.nodup_links ?_).2 fun link => ?_
  · exact List.nodup_cons.2 ⟨by simp [keyed], sound.nodup_links.filter _⟩
  · rw [← mem_oldestFirst, ← rest, limit.mem_drop_iff nodup, mem_oldestFirst, split.mem_iff, List.mem_cons,
      List.mem_cons, List.mem_filter, List.mem_filter, decide_eq_true_eq, decide_eq_true_eq, List.mem_append, not_or]
    by_cases here : link = entry
    · simp [here, stays]
    · simp [here, and_assoc]

/-- A write over an entry adds none, so the item limit still holds. -/
theorem limited_of_overwrites (sound : x.Sound) (settled : x.Settled) (placed : y.Sound) {gone : List Key}
    (writes : x.Writes item gone y) (shown : x.view item.key ≠ none) : y.size ≤ y.maxItems := by
  rw [writes.shape.maxItems]
  refine Nat.le_trans (sound.size_le placed fun key held => ?_) settled.limited
  rw [writes.view] at held
  split at held
  · rename_i here
    rwa [here]
  · split at held
    · exact absurd rfl held
    · exact held

/-- What a write leaves that fits, up to the item limit, and what it displaces for that in the end. -/
theorem writes_displaces (sound : x.Sound) (settled : x.Settled) (fits : item.encodedLength ≤ (x.home item.key).size)
    (short : item.encodedLength < UInt32.size) (few : (x.clocks.commit item).2.2.stamps.issued < UInt64.size) :
    ∃ entry first second q, (x.home item.key).put x.clocks item = (.ok (x.view item.key), q, (x.clocks.commit item).2.2) ∧
      let y := x.place (x.route item.key) q (x.clocks.commit item).2.2
      y.Sound ∧ y.Youngest item.key ∧ (x.view item.key ≠ none → y.size ≤ y.maxItems) ∧
        ∀ gone z, Evicting y gone z → item.key ∉ gone → z.size ≤ z.maxItems →
          ∃ third, x.Displaces item entry first second third z ∧ (x.view item.key ≠ none → third = []) := by
  have issued : ((x.home item.key).put x.clocks item).2.2.stamps.issued < UInt64.size := by
    rwa [Partition.put_clocks fits]
  obtain ⟨entry, first, second, q, displaces, stamped, stored, after, writes, left, restored⟩ :=
    (sound.home item.key).put_displaces fits short issued
  refine ⟨entry, first, second, q, stored, ?_⟩
  intro y
  have fresh := lt_next few
  obtain ⟨placed, written, youngest⟩ : y.Sound ∧ x.Writes (x.clocks.commit item).1 (List.map Link.key (first ++ second)) y ∧
      y.Youngest item.key := sound.writes_place (x.clocks.commit item).1 after writes fresh
  have limited (shown : x.view item.key ≠ none) : y.size ≤ y.maxItems :=
    sound.limited_of_overwrites settled placed written shown
  refine ⟨placed, youngest, limited, fun gone z run spared holds => ?_⟩
  have entryKey : entry.key = item.key := displaces.keyed
  have split := sound.links_place_of_displaces displaces placed left
  have distinct : Distinct y.links := by
    refine sound.distinct_of_restamps settled.distinct placed ⟨item.key, fun link there => ?_⟩
    rcases List.mem_cons.1 (split.subset there) with rfl | old
    · exact .inr ⟨entryKey, stamped ▸ fresh⟩
    · exact .inl (List.mem_filter.1 old).1
  obtain ⟨third, rfl, limit, rest⟩ := placed.shortest distinct run holds
  obtain ⟨final, evicts⟩ := placed.evicting run
  have all := written.evicts evicts spared
  have stays : entry ∉ third := fun there => spared (entryKey ▸ List.mem_map_of_mem there)
  have home : y.home item.key = q := by rw [home_place, if_pos rfl]
  refine ⟨third, ⟨displaces, stamped, ?_, ?_, fun key => ?_, ?_, ?_⟩, fun shown => ?_⟩
  · rwa [← oldestFirst_congr (distinct.perm split.symm) split]
  · exact sound.links_of_shortest placed final entryKey split limit rest stays
  · rw [List.map_append]
    exact all.view key
  · rw [all.evictions]
    simp only [List.length_append, List.length_map]
  · obtain ⟨taken, without⟩ := placed.without_evicting run item.key
    exact without.restored (placed.home item.key) (evicts.clocks ▸ final.home item.key) (home ▸ restored)
  · refine limit.eq_nil ?_
    rw [length_oldestFirst, ← placed.size_eq]
    exact limited shown

section Performing

variable {op : Operation}

/-- An operation that writes places what its partition becomes, and then evicts until the item limit holds. -/
theorem evicting_perform (sound : x.Sound) (writing : op.writing? x.view = some item) {old : Option Item} {q : Partition}
    {clocks : Clocks} (stored : (x.home item.key).put x.clocks item = (.ok old, q, clocks))
    (placed : (x.place (x.route item.key) q clocks).Sound) :
    let y := x.place (x.route item.key) q clocks
    ∃ gone, Evicting y gone (x.perform op).2 ∧ ((x.view item.key ≠ none → y.size ≤ y.maxItems) →
      (x.perform op).2.size ≤ (x.perform op).2.maxItems) := by
  intro y
  obtain ⟨gone, z, run, enforced, holds⟩ := placed.enforceItemLimit
  have put : (x.put item).2 = z := by
    rw [put_eq, stored]
    dsimp only
    rw [enforced]
  rcases Operation.of_writing writing with rfl | ⟨rfl, absent⟩ | ⟨expected, rfl, -, same⟩
  · rw [Index.perform, put]
    exact ⟨gone, run, fun _ => holds⟩
  · rw [Index.perform, sound.putIfAbsent_of_absent absent, put]
    exact ⟨gone, run, fun _ => holds⟩
  · rw [Index.perform, sound.replace_of_same same, stored]
    exact ⟨[], .done _, fun limited => limited (same ▸ Option.some_ne_none expected)⟩

/-- An operation that writes an item that fits answers, and displaces the oldest entries, none of which could have
stayed. What overwrites an entry displaces none for the item limit. -/
theorem perform_displaces (sound : x.Sound) (settled : x.Settled) (positive : 0 < x.maxItems)
    (writing : op.writing? x.view = some item) (fits : item.encodedLength ≤ (x.home item.key).size)
    (short : item.encodedLength < UInt32.size) (few : (x.perform op).2.clocks.stamps.issued < UInt64.size) :
    (x.perform op).1 = .ok (op.answer x.view) ∧ ∃ entry first second third,
      x.Displaces item entry first second third (x.perform op).2 ∧ (x.view item.key ≠ none → third = []) := by
  rcases sound.perform_of_writing writing (fun _ => short) few with ⟨large, -⟩ | ⟨-, _, _, _, z, commits, performed⟩
  · exact absurd fits (Nat.not_le.2 large)
  have issued : (x.clocks.commit item).2.2.stamps.issued < UInt64.size := by
    rwa [performed, commits.clocks] at few
  obtain ⟨entry, first, second, q, stored, placed, youngest, limited, displaces⟩ :=
    sound.writes_displaces settled fits short issued
  obtain ⟨gone, run, holds⟩ := sound.evicting_perform writing stored placed
  have spared := youngest.not_mem placed positive run
  obtain ⟨third, displaced, overwrites⟩ := displaces gone _ run spared (holds limited)
  exact ⟨by rw [performed], entry, first, second, third, displaced, overwrites⟩

theorem settled_perform (sound : x.Sound) (settled : x.Settled) (small : x.Small) (op : Operation)
    (few : (x.perform op).2.clocks.stamps.issued < UInt64.size) : (x.perform op).2.Settled := by
  have short (item : Item) (fits : item.encodedLength ≤ (x.home item.key).size) : item.encodedLength < UInt32.size :=
    Nat.lt_of_le_of_lt fits (small item.key)
  obtain ⟨after, -⟩ := sound.perform small op few
  refine ⟨sound.distinct_of_restamps settled.distinct after (sound.restamps_perform op (fun item _ => short item) few), ?_⟩
  cases writing : op.writing? x.view with
  | none =>
    obtain ⟨z, performed, -, -, kept, -, maxItems, -⟩ := sound.perform_of_not_writing writing few
    rw [performed] at after ⊢
    refine maxItems ▸ Nat.le_trans (sound.size_le after fun key shown => ?_) settled.limited
    exact Operation.of_kept (kept key ▸ shown)
  | some item =>
    rcases sound.perform_of_writing writing (short item) few with ⟨-, performed⟩ |
      ⟨-, first, y, second, z, commits, performed⟩
    · rw [performed]
      exact settled.limited
    · rw [performed]
      exact commits.limited settled.limited

theorem settled_run {x : Index} (sound : x.Sound) (settled : x.Settled) (small : x.Small) {ops : List Operation}
    (few : (x.run ops).clocks.stamps.issued < UInt64.size) : (x.run ops).Settled := by
  induction ops generalizing x with
  | nil => exact settled
  | cons op ops ih =>
    have before := Nat.lt_of_le_of_lt (issued_le_run (x.perform op).2 ops) few
    obtain ⟨after, performs⟩ := sound.perform small op before
    exact ih after (sound.settled_perform settled small op before) (performs.small small) few

end Performing

end Sound

section Ceiling

theorem ceiling_place {x : Index} {key : Key} {q : Partition} (same : q.ceiling = (x.home key).ceiling) (clocks : Clocks)
    (other : Key) : ((x.place (x.route key) q clocks).home other).ceiling = (x.home other).ceiling := by
  rw [home_place]
  split
  · rename_i here
    rw [same, home_congr here]
  · rfl

theorem Sound.ceiling_of_writing {x : Index} (sound : x.Sound) (small : x.Small) {op : Operation} {item : Item}
    (writing : op.writing? x.view = some item) (few : (x.perform op).2.clocks.stamps.issued < UInt64.size) (key : Key) :
    ((x.perform op).2.home key).ceiling = (x.home key).ceiling := by
  have short (fits : item.encodedLength ≤ (x.home item.key).size) := Nat.lt_of_le_of_lt fits (small item.key)
  rcases sound.perform_of_writing writing short few with ⟨-, performed⟩ | ⟨fits, _, _, _, z, commits, performed⟩
  · rw [performed]
  · have issued : (x.clocks.commit item).2.2.stamps.issued < UInt64.size := by
      rwa [performed, commits.clocks] at few
    rw [← Partition.put_clocks fits] at issued
    obtain ⟨_, q, stored, after, writes⟩ := (sound.home item.key).put fits (short fits) issued
    have placed := sound.place_of_writes (x.clocks.commit item).1 after writes
    obtain ⟨_, run, -⟩ := sound.evicting_perform writing stored placed
    obtain ⟨_, without⟩ := placed.without_evicting run key
    exact without.ceiling.trans (ceiling_place writes.ceiling _ key)

/-- An operation leaves the ceilings as they are. -/
theorem Sound.ceiling_perform {x : Index} (sound : x.Sound) (small : x.Small) (op : Operation)
    (few : (x.perform op).2.clocks.stamps.issued < UInt64.size) (key : Key) :
    ((x.perform op).2.home key).ceiling = (x.home key).ceiling := by
  cases writing : op.writing? x.view with
  | some item => exact sound.ceiling_of_writing small writing few key
  | none =>
    cases op with
    | put item => cases writing
    | putIfAbsent item =>
      obtain ⟨present, shown⟩ := Operation.present_of_idle writing
      rw [Index.perform, sound.putIfAbsent_of_present shown]
    | replace expected item =>
      have other := Operation.other_of_idle writing
      have differs : x.view item.key ≠ some expected := fun same => other ⟨sound.key_of_view same, same⟩
      rw [Index.perform, sound.replace_of_other differs]
    | get other => exact ceiling_place ((x.home other).ceiling_get other x.clocks _) _ key
    | remove other => exact ceiling_place ((x.home other).ceiling_remove other) x.clocks key
    | removeIf expected => exact ceiling_place ((x.home expected.key).ceiling_removeIf expected) x.clocks key
    | clear =>
      rw [Index.perform, show x.clear.home key = (x.home key).clear from home_of_map rfl key]
      rfl
    | close =>
      rw [Index.perform, show x.close.home key = (x.home key).close from home_of_map rfl key]
      rfl

/-- A run leaves the item limit and the ceilings as they are. -/
theorem Sound.limits_run {x : Index} (sound : x.Sound) (small : x.Small) {ops : List Operation}
    (few : (x.run ops).clocks.stamps.issued < UInt64.size) :
    (x.run ops).maxItems = x.maxItems ∧ ∀ key, ((x.run ops).home key).ceiling = (x.home key).ceiling := by
  induction ops generalizing x with
  | nil => exact ⟨rfl, fun _ => rfl⟩
  | cons op ops ih =>
    have before := Nat.lt_of_le_of_lt (issued_le_run (x.perform op).2 ops) few
    obtain ⟨after, performs⟩ := sound.perform small op before
    obtain ⟨maxItems, ceiling⟩ := ih after (performs.small small) few
    exact ⟨maxItems.trans performs.maxItems,
      fun key => (ceiling key).trans (sound.ceiling_perform small op before key)⟩

end Ceiling

theorem settled_new (s : StorageSettings) : (new s).Settled := by
  have links := (Sound.new s).links_eq_nil (view_new s)
  constructor
  · rw [links]
    exact List.nodup_nil
  · rw [(Sound.new s).size_eq, links]
    exact Nat.zero_le _

/-- Every write of every run on a new index displaces the oldest entries of its partition and then of all partitions,
and none that could have stayed; the item limit holds after every operation. The limit is at least one, arenas are
smaller than 4 GiB, and fewer than 2^64 stamps are drawn. -/
theorem displaces_run {s : StorageSettings} (positive : 1 ≤ s.maxItems) (small : s.partitionBytes < 2 ^ 32)
    {ops : List Operation} {op : Operation} (few : ((new s).run (ops ++ [op])).clocks.stamps.issued < 2 ^ 64) :
    let x := (new s).run ops
    let z := (x.perform op).2
    z.size ≤ s.maxItems ∧ (∀ key, (x.home key).ceiling = s.ceilingBytes) ∧
      ∀ item, op.writing? x.view = some item →
        if item.encodedLength ≤ (x.home item.key).size then
          (x.perform op).1 = .ok (op.answer x.view) ∧ ∃ entry first second third,
            x.Displaces item entry first second third z ∧ (x.view item.key ≠ none → third = [])
        else x.perform op = (.error (.outOfSpace item.encodedLength (x.home item.key).freeBytes), x) := by
  intro x z
  rw [run_concat] at few
  have before : x.clocks.stamps.issued < UInt64.size := Nat.lt_of_le_of_lt (x.issued_le_perform op) few
  obtain ⟨sound, fits32⟩ := (Sound.new s).run (small_new small) before
  have settled := (Sound.new s).settled_run (settled_new s) (small_new small) before
  obtain ⟨maxItems, ceiling⟩ := (Sound.new s).limits_run (small_new small) before
  refine ⟨?_, fun key => ?_, fun item writing => ?_⟩
  · have limited := (sound.settled_perform settled fits32 op few).limited
    rwa [(sound.perform fits32 op few).2.maxItems, maxItems] at limited
  · rw [ceiling, home_new]
    rfl
  · have short (fits : item.encodedLength ≤ (x.home item.key).size) := Nat.lt_of_le_of_lt fits (fits32 item.key)
    split
    · rename_i fits
      exact sound.perform_displaces settled (maxItems ▸ positive) writing fits (short fits) few
    · rename_i large
      rcases sound.perform_of_writing writing short few with ⟨-, performed⟩ | ⟨fits, -⟩
      · exact performed
      · exact absurd fits large

theorem displaces_run_second_key :
    let x := (new { maxItems := 1 }).run [.put { key := ⟨[97]⟩, data := [1] }]
    ∃ entry first second third, x.Displaces { key := ⟨[98]⟩, data := [2] } entry first second third
      (x.perform (.put { key := ⟨[98]⟩, data := [2] })).2 := by
  have few : ((new { maxItems := 1 }).run ([.put { key := ⟨[97]⟩, data := [1] }] ++
      [.put { key := ⟨[98]⟩, data := [2] }])).clocks.stamps.issued < 2 ^ 64 :=
    Nat.lt_of_le_of_lt (run_issued_le _ _) (by decide)
  have before : ((new { maxItems := 1 }).run [.put { key := ⟨[97]⟩, data := [1] }]).clocks.stamps.issued < 2 ^ 64 :=
    Nat.lt_of_le_of_lt (run_issued_le _ _) (by decide)
  have outcome := (displaces_run (by decide) (by decide) few).2.2 _ rfl
  have size := (Sound.new { maxItems := 1 }).size_run (small_new (by decide)) before ⟨[98]⟩
  rw [if_neg (by decide), home_new] at size
  rw [if_pos (size ▸ by decide)] at outcome
  obtain ⟨-, entry, first, second, third, displaces, -⟩ := outcome
  exact ⟨entry, first, second, third, displaces⟩

end BlockCache.Index

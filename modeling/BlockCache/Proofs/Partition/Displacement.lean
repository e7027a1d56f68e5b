import BlockCache.Proofs.Arena.Room
import BlockCache.Proofs.Eviction.Order
import BlockCache.Proofs.Partition.Consistency
import Mathlib.Algebra.Order.BigOperators.Group.List
import Mathlib.Algebra.Order.Group.Nat

/-!
# What a write displaces in its partition

Both loops of a write take the oldest entries, and neither takes one more than it must. What they aim at can be
said of the links that are left: that some run of blocks beside them is long enough for the value, and then that
the bytes beside them reach the ceiling. A run of evictions takes the shortest front of the entries by age that
brings its aim about, and that makes the entries displaced by a write a function of what was there before it.
-/

open scoped List

namespace BlockCache

/-- The block is one of the link's run. -/
def Link.Covers (link : Link) (block : Nat) : Prop :=
  link.region.start.toNat ≤ block ∧ block < link.region.start.toNat + link.region.blocks.toNat

namespace Arena

/-- Some `needed` blocks in a row, inside the arena, are in no run of the links. -/
def HasRoom (a : Arena) (needed : Nat) (links : List Link) : Prop :=
  ∃ start, start + needed ≤ a.totalBlocks ∧
    ∀ block, start ≤ block → block < start + needed → ∀ link ∈ links, ¬link.Covers block

/-- The bytes of the arena beside the runs of the links. -/
def bytesBeside (a : Arena) (links : List Link) : Nat :=
  (a.totalBlocks - (links.map (·.region.blocks.toNat)).sum) * a.blockSize

variable {a : Arena} {links others : List Link}

theorem hasRoom_congr (same : others ~ links) {needed : Nat} : a.HasRoom needed others ↔ a.HasRoom needed links := by
  simp only [HasRoom, same.mem_iff]

theorem hasRoom_eq {b : Arena} (totalBlocks : b.totalBlocks = a.totalBlocks) : b.HasRoom = a.HasRoom := by
  funext needed links
  rw [HasRoom, HasRoom, totalBlocks]

theorem bytesBeside_congr (same : others ~ links) : a.bytesBeside others = a.bytesBeside links := by
  rw [bytesBeside, bytesBeside, (same.map _).sum_eq]

theorem bytesBeside_eq {b : Arena} (totalBlocks : b.totalBlocks = a.totalBlocks) (blockSize : b.blockSize = a.blockSize) :
    b.bytesBeside = a.bytesBeside := by
  funext links
  rw [bytesBeside, bytesBeside, totalBlocks, blockSize]

/-- Fewer links leave more bytes. -/
theorem bytesBeside_le (fewer : others <+~ links) : a.bytesBeside links ≤ a.bytesBeside others := by
  obtain ⟨part, same, sub⟩ := fewer
  have sum := (sub.map (·.region.blocks.toNat)).sum_le_sum fun _ _ => Nat.zero_le _
  rw [(same.map _).sum_eq] at sum
  exact Nat.mul_le_mul_right _ (Nat.sub_le_sub_left sum _)

end Arena

namespace Partition

/-- The entries other than the one spared, oldest first. -/
def candidates (p : Partition) (spared : Option Key) : List Link :=
  oldestFirst (p.chains.links.filter fun link => some link.key ≠ spared)

theorem mem_candidates {p : Partition} {spared : Option Key} {link : Link} :
    link ∈ p.candidates spared ↔ link ∈ p.chains.links ∧ some link.key ≠ spared := by
  simp [candidates]

/-- The bytes beside an entry and the links reach the ceiling, or there is no other link than the entry. -/
def Restored (p : Partition) (entry : Link) (links : List Link) : Prop :=
  links = [] ∨ p.ceiling ≤ p.arena.bytesBeside (entry :: links)

theorem candidates_none (p : Partition) : p.candidates none = oldestFirst p.chains.links := by
  simp [candidates]

namespace Sound

variable {p q : Partition} {drawn : Nat} {spared : Option Key}

theorem nodup_links (sound : p.Sound drawn) : p.chains.links.Nodup := sound.chains.unique.of_map

theorem distinct (sound : p.Sound drawn) : Distinct p.chains.links := by
  refine sound.nodup_links.map_on fun a memA b memB same => ?_
  by_contra ne
  exact sound.stamp_ne memA memB (fun keys => ne (List.inj_on_of_nodup_map sound.chains.unique memA memB keys)) same

/-- A value can be reserved exactly if there is room beside the links. -/
theorem alloc_iff_hasRoom (sound : p.Sound drawn) (size : Nat) :
    (∃ r a, p.arena.alloc size = .ok (r, a)) ↔ p.arena.HasRoom (p.arena.blocksFor size) p.chains.links := by
  have free_iff (block : Nat) : p.arena.used.isUsed block = false ↔ ∀ link ∈ p.chains.links, ¬link.Covers block := by
    have used_iff := (sound.arena.used_iff block).trans (sound.covers_iff block)
    rw [← Bool.not_eq_true, used_iff]
    simp [Link.Covers]
  rw [sound.arena.alloc_iff]
  refine exists_congr fun start => ⟨fun run => ⟨run.inside, fun block low high => ?_⟩, fun room => ⟨room.1, fun block low high => ?_⟩⟩
  · exact (free_iff block).1 (run.free block low high)
  · exact (free_iff block).2 (room.2 block low high)

theorem freeBytes_eq (sound : p.Sound drawn) : p.freeBytes = p.arena.bytesBeside p.chains.links := by
  have live : p.arena.liveBlocks = (p.chains.links.map (·.region.blocks.toNat)).sum := by
    have sum := (sound.runs.map fun entry : Nat × UInt32 => entry.2.toNat).sum_eq
    rw [List.map_map] at sum
    exact sum
  have balance := sound.arena.balance
  rw [freeBytes, Arena.freeBytes, Arena.bytesBeside, ← live]
  congr 1
  omega

/-- An eviction takes the first candidate. -/
theorem candidates_evictOne (sound : p.Sound drawn) {key : Key} (evicted : p.evictOne spared = (.ok (some key), q)) :
    ∃ link, link.key = key ∧ p.candidates spared = link :: q.candidates spared := by
  rcases sound.evictOne spared with ⟨-, same⟩ | ⟨stamp, victim, r, chosen, same, after, without, -⟩
  · simp [same] at evicted
  rw [same] at evicted
  obtain ⟨rfl, rfl⟩ : victim = key ∧ r = q := by simpa using evicted
  obtain ⟨other, ⟨link, mem, rfl, rfl⟩, least⟩ := sound.victim?_eq_some chosen
  have remains (one : Link) : one ∈ r.chains.links ↔ one ∈ p.chains.links ∧ one ≠ link := by
    rw [without.links, List.mem_singleton]
    refine and_congr_right fun held => not_congr ⟨fun keys => ?_, fun same => same ▸ rfl⟩
    exact List.inj_on_of_nodup_map sound.chains.unique held mem keys
  refine ⟨link, rfl, oldestFirst_of_taken (sound.distinct.filter _) ?_ (fun one there => ?_) (after.nodup_links.filter _)
    fun one => ?_⟩
  · exact List.mem_filter.2 ⟨mem, by simpa using other⟩
  · obtain ⟨held, wanted⟩ := List.mem_filter.1 there
    exact least one held (by simpa using wanted)
  · rw [List.mem_filter, List.mem_filter, remains]
    exact and_right_comm

/-- A run of evictions takes the shortest front of the candidates that brings a goal about, if the goal was not met
whenever an eviction was needed, and is met in the end. -/
theorem shortest (sound : p.Sound drawn) {need : Partition → Prop} {goal : List Link → Prop} {gone : List Key}
    (run : Evicting spared need p gone q) (reached : goal (q.candidates spared))
    (unmet : ∀ {early : List Key} {r : Partition}, r.Sound drawn → p.Without early r → (∀ key ∈ early, some key ≠ spared) →
      need r → r.candidates spared ≠ [] → ¬goal (r.candidates spared)) :
    ∃ taken, taken.map (·.key) = gone ∧ Shortest goal (p.candidates spared) taken ∧
      (p.candidates spared).drop taken.length = q.candidates spared := by
  induction run with
  | done p => exact ⟨[], rfl, .nil reached, rfl⟩
  | @step p q r key gone needed evicted _ ih =>
    obtain ⟨link, rfl, first⟩ := sound.candidates_evictOne evicted
    obtain ⟨middle, without, -, other⟩ := sound.of_evictOne evicted
    obtain ⟨taken, rfl, front, left⟩ := ih middle reached fun later split spares needed some =>
      unmet later (without.trans split) (by simpa using ⟨other, spares⟩) needed some
    have open' : ¬goal (p.candidates spared) := unmet sound (.refl p) (by simp) needed (by rw [first]; exact List.cons_ne_nil _ _)
    rw [first] at open' ⊢
    exact ⟨link :: taken, rfl, front.cons open', left⟩

/-- One entry and the candidates when it is spared are all entries. -/
theorem links_perm_candidates (sound : p.Sound drawn) {entry : Link} (mem : entry ∈ p.chains.links) :
    p.chains.links ~ entry :: p.candidates (some entry.key) := by
  have nodup : (p.candidates (some entry.key)).Nodup :=
    (oldestFirst_perm _).nodup_iff.2 (sound.nodup_links.filter _)
  refine (List.perm_ext_iff_of_nodup sound.nodup_links (List.nodup_cons.2 ⟨?_, nodup⟩)).2 fun link => ?_
  · exact fun there => (mem_candidates.1 there).2 rfl
  · rw [List.mem_cons, mem_candidates, ne_eq, Option.some.injEq]
    constructor
    · intro held
      by_cases same : link.key = entry.key
      · exact .inl (List.inj_on_of_nodup_map sound.chains.unique held mem same)
      · exact .inr ⟨held, same⟩
    · rintro (rfl | ⟨held, -⟩)
      · exact mem
      · exact held

/-- A link holds what is shown under its key. -/
theorem holds_of_view (sound : p.Sound drawn) {link : Link} (mem : link ∈ p.chains.links) {item : Item}
    (shown : p.view link.key = some item) : p.Holds link item := by
  obtain ⟨other, there, same, holds⟩ := sound.view_eq_some_iff.1 shown
  rwa [List.inj_on_of_nodup_map sound.chains.unique there mem same] at holds

theorem candidates_of_removes (sound : p.Sound drawn) {key : Key} (after : q.Sound drawn) (removes : p.Removes key q) :
    q.candidates none = p.candidates (some key) := by
  rw [candidates_none]
  refine oldestFirst_congr (sound.distinct.filter _) ?_
  refine (List.perm_ext_iff_of_nodup after.nodup_links (sound.nodup_links.filter _)).2 fun link => ?_
  rw [removes.links, List.mem_filter, decide_eq_true_eq, ne_eq, ne_eq, Option.some.injEq]

theorem candidates_of_adds (sound : p.Sound drawn) {item : Item} {stamp : UInt64} (absent : p.view item.key = none)
    (adds : p.Adds item stamp q) : q.candidates (some item.key) = p.candidates none := by
  obtain ⟨region, links⟩ := adds.links
  have others := sound.chains.find?_eq_none_iff.1 (sound.view_eq_none_iff.1 absent)
  rw [candidates_none]
  refine oldestFirst_congr sound.distinct ((links.filter _).trans (.of_eq ?_))
  rw [List.filter_cons_of_neg (by simp), List.filter_eq_self]
  exact fun link mem => by simpa using others link mem

/-- The first loop of a write takes as many of the oldest entries as have to go for the value to have room. -/
theorem shortest_room (sound : p.Sound drawn) {size : Nat} {gone : List Key}
    (making : Evicting none (fun p => p.arena.alloc size = .error (.outOfSpace size p.arena.freeBytes)) p gone q)
    (reserved : ∃ r a, q.arena.alloc size = .ok (r, a)) :
    ∃ taken, taken.map (·.key) = gone ∧
      Shortest (p.arena.HasRoom (p.arena.blocksFor size)) (p.candidates none) taken ∧
      (p.candidates none).drop taken.length = q.candidates none := by
  have room_iff {early : List Key} {r : Partition} (middle : r.Sound drawn) (without : p.Without early r) :
      (∃ region a, r.arena.alloc size = .ok (region, a)) ↔
        p.arena.HasRoom (p.arena.blocksFor size) (r.candidates none) := by
    rw [middle.alloc_iff_hasRoom, Arena.blocksFor_congr without.blockSize, Arena.hasRoom_eq without.totalBlocks,
      candidates_none]
    exact Arena.hasRoom_congr (oldestFirst_perm _).symm
  obtain ⟨after, without, -⟩ := sound.evicting making
  refine sound.shortest making ((room_iff after without).1 reserved) fun middle split _ refused _ room => ?_
  obtain ⟨region, a, found⟩ := (room_iff middle split).2 room
  rw [found] at refused
  cases refused

/-- The second loop of a write takes as many of the oldest other entries as have to go for the ceiling. -/
theorem shortest_ceiling (sound : p.Sound drawn) {entry : Link} (mem : entry ∈ p.chains.links) {gone : List Key}
    (restoring : Evicting (some entry.key) (fun p => p.arena.freeBytes < p.ceiling) p gone q)
    (stop : q.ceiling ≤ q.arena.freeBytes ∨ ∀ link ∈ q.chains.links, link.key = entry.key) :
    ∃ taken, taken.map (·.key) = gone ∧
      Shortest (p.Restored entry) (p.candidates (some entry.key)) taken ∧
      (p.candidates (some entry.key)).drop taken.length = q.candidates (some entry.key) ∧
      q.chains.links ~ entry :: q.candidates (some entry.key) := by
  have still {early : List Key} {r : Partition} (without : p.Without early r)
      (spares : ∀ key ∈ early, some key ≠ some entry.key) : entry ∈ r.chains.links :=
    (without.links entry).2 ⟨mem, fun gone => spares _ gone rfl⟩
  have free_eq {early : List Key} {r : Partition} (middle : r.Sound drawn) (without : p.Without early r)
      (spares : ∀ key ∈ early, some key ≠ some entry.key) :
      r.arena.freeBytes = p.arena.bytesBeside (entry :: r.candidates (some entry.key)) := by
    rw [← Arena.bytesBeside_eq without.totalBlocks without.blockSize]
    exact middle.freeBytes_eq.trans (Arena.bytesBeside_congr (middle.links_perm_candidates (still without spares)))
  obtain ⟨after, without, -, -, spares⟩ := sound.evicting restoring
  have reached : p.Restored entry (q.candidates (some entry.key)) := by
    rcases stop with enough | alone
    · right
      rwa [← free_eq after without spares, ← without.ceiling]
    · left
      rw [List.eq_nil_iff_forall_not_mem]
      intro link there
      obtain ⟨held, other⟩ := mem_candidates.1 there
      exact other (congrArg some (alone link held))
  obtain ⟨taken, keys, front, left⟩ := sound.shortest restoring reached fun middle split others below nonempty met => by
    rcases met with none_left | enough
    · exact nonempty none_left
    · rw [← free_eq middle split others, ← split.ceiling] at enough
      exact absurd below (Nat.not_lt.2 enough)
  exact ⟨taken, keys, front, left, after.links_perm_candidates (still without spares)⟩

end Sound

/-- What a write of `size` bytes under a key displaces: `first` has to go before there is room for its entry, and then `second`
before the free bytes reach the ceiling, which everything else may not be enough for. -/
structure Displaces (p : Partition) (key : Key) (size : Nat) (entry : Link) (first second : List Link) : Prop where
  keyed : entry.key = key
  length : entry.region.length.toNat = size
  blocks : entry.region.blocks.toNat = p.arena.blocksFor size
  room : Shortest (p.arena.HasRoom (p.arena.blocksFor size)) (p.candidates (some key)) first
  ceiling : Shortest (p.Restored entry) ((p.candidates (some key)).drop first.length) second

namespace Displaces

variable {p : Partition} {drawn : Nat} {key : Key} {size : Nat} {entry : Link} {first second : List Link}

/-- What stays beside the entry is what was there under other keys and was not displaced. -/
theorem mem_left_iff (displaces : p.Displaces key size entry first second) (sound : p.Sound drawn) {link : Link} :
    link ∈ ((p.candidates (some key)).drop first.length).drop second.length ↔
      link ∈ p.chains.links ∧ link.key ≠ key ∧ link ∉ first ++ second := by
  have nodup : (p.candidates (some key)).Nodup :=
    (oldestFirst_perm _).nodup_iff.2 (sound.nodup_links.filter _)
  rw [displaces.ceiling.mem_drop_iff (nodup.sublist (List.drop_sublist ..)), displaces.room.mem_drop_iff nodup,
    mem_candidates, ne_eq, Option.some.injEq, List.mem_append, not_or, and_assoc, and_assoc]

theorem mem_of_displaced (displaces : p.Displaces key size entry first second) {link : Link} (mem : link ∈ first ++ second) :
    link ∈ p.chains.links := by
  rcases List.mem_append.1 mem with early | late
  · exact (mem_candidates.1 (displaces.room.subset early)).1
  · exact (mem_candidates.1 (List.mem_of_mem_drop (displaces.ceiling.subset late))).1

/-- What is displaced after the key's old entry was taken out is displaced by the write. -/
theorem of_removes {q : Partition}
    (removes : p.Removes key q) (same : q.candidates (some key) = p.candidates (some key))
    (displaces : q.Displaces key size entry first second) : p.Displaces key size entry first second := by
  have room := displaces.room
  have ceiling := displaces.ceiling
  have restored : q.Restored = p.Restored := by
    funext entry links
    rw [Restored, Restored, removes.ceiling, Arena.bytesBeside_eq removes.totalBlocks removes.blockSize]
  rw [same, Arena.hasRoom_eq removes.totalBlocks, Arena.blocksFor_congr removes.blockSize] at room
  rw [same, restored] at ceiling
  exact ⟨displaces.keyed, displaces.length, displaces.blocks.trans (Arena.blocksFor_congr removes.blockSize _), room, ceiling⟩

end Displaces

/-- A ceiling that was restored stays so when entries are taken out. -/
theorem Without.restored {p q : Partition} {drawn : Nat} {gone : List Key} {key : Key} (without : p.Without gone q)
    (sound : p.Sound drawn) (after : q.Sound drawn)
    (restored : p.ceiling ≤ p.freeBytes ∨ ∀ link ∈ p.chains.links, link.key = key) :
    q.ceiling ≤ q.freeBytes ∨ ∀ link ∈ q.chains.links, link.key = key := by
  have subset : q.chains.links ⊆ p.chains.links := fun link mem => ((without.links link).1 mem).1
  rcases restored with enough | alone
  · left
    rw [without.ceiling, after.freeBytes_eq, Arena.bytesBeside_eq without.totalBlocks without.blockSize]
    rw [sound.freeBytes_eq] at enough
    exact Nat.le_trans enough (Arena.bytesBeside_le (List.subperm_of_subset after.nodup_links subset))
  · exact .inr fun link mem => alone link (subset mem)

namespace Sound

variable {p : Partition} {item : Item}

/-- Storing an item under a key that has no entry displaces the oldest entries, and none that could have stayed. -/
theorem storeNew_displaces {drawn : Nat} (sound : p.Sound drawn) (absent : p.view item.key = none)
    (fits : item.encodedLength ≤ p.arena.size) (short : item.encodedLength < UInt32.size) {stamp : UInt64}
    (fresh : drawn < stamp.toNat) :
    ∃ entry first second q, p.Displaces item.key item.encodedLength entry first second ∧ entry.stamp = stamp ∧
      p.storeNew item.key item.encode stamp = (.ok (), q) ∧ q.Sound stamp.toNat ∧
      p.Writes item stamp ((first ++ second).map (·.key)) q ∧
      q.chains.links ~ entry :: ((p.candidates (some item.key)).drop first.length).drop second.length ∧
      (q.ceiling ≤ q.freeBytes ∨ ∀ link ∈ q.chains.links, link.key = item.key) := by
  obtain ⟨gone, room, full, dropped, q, making, adds, stored, restoring, stop, answer⟩ :=
    sound.storeNew absent fits short fresh
  obtain ⟨final, writes⟩ := sound.writes_of_runs absent making adds stored restoring
  obtain ⟨middle, before, -⟩ := sound.evicting making
  have absentRoom : room.view item.key = none := by rw [before.view, absent, ite_self]
  obtain ⟨region, links⟩ := adds.links
  have there : ⟨item.key, region, stamp⟩ ∈ full.chains.links := links.symm.subset (List.mem_cons_self ..)
  have holds := stored.holds_of_view there ((adds.view item.key).trans (if_pos rfl))
  obtain ⟨first, rfl, makes, left⟩ := sound.shortest_room making adds.room
  obtain ⟨second, rfl, restores, rest, all⟩ := stored.shortest_ceiling there restoring stop
  dsimp only at restores rest all
  have blockSize := adds.blockSize.trans before.blockSize
  have restored : full.Restored = p.Restored := by
    funext entry links
    rw [Restored, Restored, adds.ceiling, before.ceiling,
      Arena.bytesBeside_eq (adds.totalBlocks.trans before.totalBlocks) blockSize]
  rw [sound.candidates_of_removes sound (sound.removes_of_absent absent)] at makes left
  rw [middle.candidates_of_adds absentRoom adds, ← left] at restores rest
  rw [restored] at restores
  refine ⟨_, first, second, q, ⟨rfl, holds.length, ?_, makes, restores⟩, rfl, answer, final, ?_, ?_, stop⟩
  · exact holds.blocks.trans (Arena.blocksFor_congr blockSize _)
  · rw [List.map_append]
    exact writes
  · rw [rest]
    exact all

/-- A write displaces the oldest entries of other keys, and none that could have stayed. -/
theorem put_displaces {clocks : Clocks} (sound : p.Sound clocks.stamps.issued) (fits : item.encodedLength ≤ p.size)
    (short : item.encodedLength < UInt32.size) (few : (p.put clocks item).2.2.stamps.issued < UInt64.size) :
    ∃ entry first second q, p.Displaces item.key item.encodedLength entry first second ∧
      entry.stamp = clocks.stamps.next.1 ∧
      p.put clocks item = (.ok (p.view item.key), q, (clocks.commit item).2.2) ∧
      q.Sound (clocks.commit item).2.2.stamps.issued ∧
      p.Writes (clocks.commit item).1 clocks.stamps.next.1 ((first ++ second).map (·.key)) q ∧
      q.chains.links ~ entry :: ((p.candidates (some item.key)).drop first.length).drop second.length ∧
      (q.ceiling ≤ q.freeBytes ∨ ∀ link ∈ q.chains.links, link.key = item.key) := by
  rw [put_clocks fits] at few
  have stamp := clocks.commit_stamp item few
  obtain ⟨r, removed, after, removes⟩ := sound.remove item.key
  have absent : r.view (clocks.commit item).1.key = none := by rw [removes.view, if_pos (clocks.commit_key item)]
  have fresh : clocks.stamps.issued < (clocks.commit item).2.1.toNat := by
    rw [stamp]
    exact Nat.lt_succ_self _
  obtain ⟨entry, first, second, q, displaces, stamped, stored, final, writes, links, stop⟩ :=
    after.storeNew_displaces absent (removes.size.symm ▸ fits) short fresh
  have same : r.candidates (some item.key) = p.candidates (some item.key) := by
    rw [← sound.candidates_of_removes after removes]
    exact (after.candidates_of_removes after (after.removes_of_absent absent)).symm
  have links : q.chains.links ~ entry :: ((r.candidates (some item.key)).drop first.length).drop second.length := links
  rw [same] at links
  exact ⟨entry, first, second, q, displaces.of_removes removes same, stamped, put_of_stored fits removed stored,
    stamp ▸ final, .of_removes removes writes, links, stop⟩

end Sound
section Ceiling

variable (p : Partition) (key : Key)

theorem ceiling_unlink : (p.unlink key).2.ceiling = p.ceiling := by
  unfold unlink
  split
  · rfl
  · dsimp only
    split <;> rfl

theorem ceiling_remove : (p.remove key).2.ceiling = p.ceiling := by
  have same := p.ceiling_unlink key
  unfold remove
  split
  · rfl
  · rfl
  · split
    all_goals
      rename_i unlinked
      rw [unlinked] at same
      exact same

theorem ceiling_removeIf (expected : Item) : (p.removeIf expected).2.ceiling = p.ceiling := by
  unfold removeIf
  split
  · rfl
  · split
    · exact p.ceiling_unlink expected.key
    · rfl

theorem ceiling_get (clocks : Clocks) (touch : Bool) : (p.get clocks key touch).2.1.ceiling = p.ceiling := by
  unfold get
  split
  · split <;> rfl
  · rfl

end Ceiling

end Partition
end BlockCache

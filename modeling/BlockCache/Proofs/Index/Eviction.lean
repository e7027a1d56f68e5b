import BlockCache.Proofs.Index.Invariant
import BlockCache.Proofs.Partition.Eviction

/-!
# Eviction over all partitions

The victim is the entry with the smallest stamp in the whole index, and taking it out never fails.
`Evicting` is a run of such evictions while more items are stored than the limit allows. The youngest
entry is never among the victims if the limit allows one item at all.
-/

namespace BlockCache.Index

/-- `y` is `x` but for what its partitions hold. -/
structure SameShape (x y : Index) : Prop where
  policy : y.policy = x.policy
  maxItems : y.maxItems = x.maxItems
  partitions : y.partitions.size = x.partitions.size
  room : ∀ key, (y.home key).size = (x.home key).size

theorem SameShape.refl (x : Index) : x.SameShape x := ⟨rfl, rfl, rfl, fun _ => rfl⟩

theorem SameShape.trans {x y z : Index} (left : x.SameShape y) (right : y.SameShape z) : x.SameShape z :=
  ⟨right.policy.trans left.policy, right.maxItems.trans left.maxItems, right.partitions.trans left.partitions,
    fun key => (right.room key).trans (left.room key)⟩

theorem sameShape_place {x : Index} {i : Fin x.partitions.size} {q : Partition} (clocks : Clocks)
    (size : q.size = (getElem x.partitions i i.isLt).size) : x.SameShape (x.place i q clocks) := by
  refine ⟨rfl, rfl, x.size_partitions_place i q clocks, fun key => ?_⟩
  rw [home_place]
  split
  · rename_i here
    rw [size, ← here]
    rfl
  · rfl

/-- `y` is `x` after some keys, all of which held an item, were evicted. -/
structure Evicts (x : Index) (gone : List Key) (y : Index) : Prop where
  links : ∀ link, link ∈ y.links ↔ link ∈ x.links ∧ link.key ∉ gone
  view : ∀ key, y.view key = if key ∈ gone then none else x.view key
  stored : ∀ key ∈ gone, x.view key ≠ none
  nodup : gone.Nodup
  size : y.size + gone.length = x.size
  evictions : y.evictions = x.evictions + gone.length
  clocks : y.clocks = x.clocks
  shape : x.SameShape y

theorem Evicts.refl (x : Index) : x.Evicts [] x where
  links := by simp
  view := by simp
  stored := by simp
  nodup := List.nodup_nil
  size := rfl
  evictions := rfl
  clocks := rfl
  shape := .refl x

theorem Evicts.cons {x y z : Index} {key : Key} {gone : List Key} (first : x.Evicts [key] y) (rest : y.Evicts gone z) :
    x.Evicts (key :: gone) z where
  links link := by
    rw [rest.links, first.links, List.mem_singleton, List.mem_cons, not_or, and_assoc]
  view other := by
    rw [rest.view, first.view]
    simp only [List.mem_cons]
    by_cases one : other = key <;> by_cases more : other ∈ gone <;> simp [one, more]
  stored other mem := by
    rcases List.mem_cons.1 mem with rfl | later
    · exact first.stored other (List.mem_singleton_self other)
    · have := rest.stored other later
      rw [first.view] at this
      split at this
      · exact absurd rfl this
      · exact this
  nodup := List.nodup_cons.2 ⟨fun again => rest.stored key again (by rw [first.view]; simp), rest.nodup⟩
  size := by
    have := first.size
    have := rest.size
    rw [List.length_singleton] at *
    rw [List.length_cons]
    omega
  evictions := by
    rw [rest.evictions, first.evictions, List.length_singleton, List.length_cons]
    omega
  clocks := rest.clocks.trans first.clocks
  shape := first.shape.trans rest.shape

/-- Evictions one after the other, each made because the item limit was exceeded; `gone` are their
victims in order. -/
inductive Evicting : Index → List Key → Index → Prop where
  | done (x : Index) : Evicting x [] x
  | step {x y z : Index} {key : Key} {gone : List Key} : x.maxItems < x.size → x.evictOldest = (.ok (some key), y) →
      Evicting y gone z → Evicting x (key :: gone) z

section Oldest

variable {x : Index} {is : List (Fin x.partitions.size)} {best : Option (UInt64 × Fin x.partitions.size)}

theorem older_eq_none_iff {i : Fin x.partitions.size} :
    x.older best i = none ↔ best = none ∧ (getElem x.partitions i i.isLt).oldestStamp? = none := by
  unfold older
  split
  · rename_i absent
    rw [absent]
    exact ⟨fun same => ⟨same, rfl⟩, And.left⟩
  · rename_i present
    rw [present]
    simp
  · split <;> simp

/-- The older of two entries is one of them, and neither is older than it. -/
theorem le_of_older {i k : Fin x.partitions.size} {least : UInt64} (chosen : x.older best i = some (least, k)) :
    (best = some (least, k) ∨ (getElem x.partitions k k.isLt).oldestStamp? = some least) ∧
      (∀ stamp j, best = some (stamp, j) → least ≤ stamp) ∧
      ∀ stamp, (getElem x.partitions i i.isLt).oldestStamp? = some stamp → least ≤ stamp := by
  have self {stamp : UInt64} {j : Fin x.partitions.size} (same : some (least, k) = some (stamp, j)) :
      least ≤ stamp := by
    rw [(Prod.mk.inj (Option.some.inj same)).1]
    exact UInt64.le_refl stamp
  unfold older at chosen
  split at chosen
  · rename_i absent
    rw [absent, chosen]
    exact ⟨.inl rfl, fun _ _ same => self same, nofun⟩
  · rename_i stamp present
    obtain ⟨rfl, rfl⟩ := Prod.mk.inj (Option.some.inj chosen)
    refine ⟨.inr present, nofun, fun other same => ?_⟩
    rw [Option.some.inj (present.symm.trans same)]
    exact UInt64.le_refl other
  · rename_i stamp before j present
    rw [present]
    split at chosen
    · rename_i smaller
      obtain ⟨rfl, rfl⟩ := Prod.mk.inj (Option.some.inj chosen)
      refine ⟨.inr present, fun other l same => ?_, fun other same => ?_⟩
      · rw [← (Prod.mk.inj (Option.some.inj same)).1]
        exact UInt64.le_of_lt smaller
      · rw [Option.some.inj same]
        exact UInt64.le_refl other
    · rename_i larger
      obtain ⟨rfl, rfl⟩ := Prod.mk.inj (Option.some.inj chosen)
      refine ⟨.inl rfl, fun other l same => self same, fun other same => ?_⟩
      rw [← Option.some.inj same]
      exact UInt64.not_lt.1 larger

theorem foldl_older_eq_none_iff :
    is.foldl x.older best = none ↔ best = none ∧ ∀ i ∈ is, (getElem x.partitions i i.isLt).oldestStamp? = none := by
  induction is generalizing best with
  | nil => simp
  | cons i is ih => rw [List.foldl_cons, ih, older_eq_none_iff, List.forall_mem_cons, and_assoc]

theorem le_of_foldl_older {least : UInt64} {k : Fin x.partitions.size}
    (found : is.foldl x.older best = some (least, k)) :
    (best = some (least, k) ∨ (getElem x.partitions k k.isLt).oldestStamp? = some least) ∧
      (∀ stamp j, best = some (stamp, j) → least ≤ stamp) ∧
      ∀ i ∈ is, ∀ stamp, (getElem x.partitions i i.isLt).oldestStamp? = some stamp → least ≤ stamp := by
  induction is generalizing best with
  | nil =>
    obtain rfl : best = some (least, k) := found
    refine ⟨.inl rfl, fun stamp j same => ?_, by simp⟩
    rw [(Prod.mk.inj (Option.some.inj same)).1]
    exact UInt64.le_refl stamp
  | cons i is ih =>
    obtain ⟨held, below, others⟩ := ih found
    rw [List.forall_mem_cons]
    rcases chosen : x.older best i with - | ⟨stamp, j⟩
    · obtain ⟨rfl, absent⟩ := older_eq_none_iff.1 chosen
      rw [chosen] at held
      rw [absent]
      exact ⟨held, nofun, nofun, others⟩
    · obtain ⟨source, first, second⟩ := le_of_older chosen
      have least_le := below stamp j chosen
      refine ⟨?_, fun other l same => UInt64.le_trans least_le (first other l same),
        fun other same => UInt64.le_trans least_le (second other same), others⟩
      rcases held with same | held
      · obtain ⟨rfl, rfl⟩ := Prod.mk.inj (Option.some.inj (chosen.symm.trans same))
        exact source
      · exact .inr held

end Oldest

namespace Sound

variable {x y : Index}

/-- What a partition loses by evictions, the index loses. -/
theorem evicts_place (sound : x.Sound) {i : Fin x.partitions.size} {q : Partition} {gone : List Key}
    (after : q.Sound x.clocks.stamps.issued) (without : (getElem x.partitions i i.isLt).Without gone q) (nodup : gone.Nodup)
    (evictions : q.evictions = (getElem x.partitions i i.isLt).evictions + gone.length) :
    (x.place i q x.clocks).Sound ∧ x.Evicts gone (x.place i q x.clocks) := by
  have here : x.partitions[i.val]? = some x.partitions[i] := by simp
  have routed (link : Link) (mem : link ∈ q.chains.links) : x.route link.key = i :=
    Fin.val_inj.1 (sound.routed here link ((without.links link).1 mem).1)
  have placed := sound.place after (Nat.le_refl _) routed
  have elsewhere {key : Key} (other : x.route key ≠ i) : key ∉ gone :=
    fun mem => other (sound.route_eq_of_view (without.stored key mem))
  refine ⟨placed, fun link => ?_, fun key => ?_, fun key mem => ?_, nodup, ?_, ?_, rfl, sameShape_place _ without.size⟩
  · rw [placed.mem_links_iff, sound.mem_links_iff, home_place]
    split
    · rename_i home
      rw [without.links, ← home]
      rfl
    · rename_i other
      exact ⟨fun mem => ⟨mem, elsewhere other⟩, And.left⟩
  · rw [view_place]
    split
    · rename_i home
      rw [without.view, ← home]
      rfl
    · rename_i other
      rw [if_neg (elsewhere other)]
  · have stored := without.stored key mem
    rwa [← sound.route_eq_of_view stored] at stored
  · have sum := x.total_place i q x.clocks (·.count)
    have count := without.count
    rw [size, size]
    omega
  · have sum := x.total_place i q x.clocks (·.evictions)
    rw [Index.evictions, Index.evictions]
    omega

/-- The entry with the smallest stamp of all is evicted, as long as there is an entry. -/
theorem evictOldest (sound : x.Sound) : (x.links = [] ∧ x.evictOldest = (.ok none, x)) ∨
    ∃ link ∈ x.links, (∀ other ∈ x.links, link.stamp ≤ other.stamp) ∧
      ∃ y, x.evictOldest = (.ok (some link.key), y) ∧ y.Sound ∧ x.Evicts [link.key] y := by
  rcases found : (List.finRange x.partitions.size).foldl x.older none with - | ⟨least, i⟩
  · left
    have empty := (foldl_older_eq_none_iff.1 found).2
    constructor
    · rw [List.eq_nil_iff_forall_not_mem]
      intro link mem
      have none_here := empty (x.route link.key) (List.mem_finRange _)
      have := (sound.home link.key).oldestStamp?_eq_none_iff.1 none_here
      rw [sound.mem_links_iff, this] at mem
      cases mem
    · rw [Index.evictOldest, oldestPartition?, found]
      rfl
  · right
    obtain ⟨held, -, below⟩ := le_of_foldl_older found
    have oldest : x.partitions[i].oldestStamp? = some least := held.resolve_left (by simp)
    have here : x.partitions[i.val]? = some x.partitions[i] := by simp
    obtain ⟨link, mem, stamped, -, q, evicted, after, without, evictions⟩ := (sound.each here).evictOldest oldest
    obtain ⟨placed, evicts⟩ := sound.evicts_place after without (List.nodup_singleton _) evictions
    refine ⟨link, mem_links.2 ⟨i, _, here, mem⟩, fun other there => ?_, _, ?_, placed, evicts⟩
    · have home := sound.home other.key
      cases stamp : (x.home other.key).oldestStamp? with
      | none =>
        rw [sound.mem_links_iff, home.oldestStamp?_eq_none_iff.1 stamp] at there
        cases there
      | some first =>
        obtain ⟨-, -, -, smallest, -⟩ := home.evictOldest stamp
        rw [stamped]
        exact UInt64.le_trans (below (x.route other.key) (List.mem_finRange _) first stamp)
          (smallest other (sound.mem_links_iff.1 there))
    · rw [Index.evictOldest, oldestPartition?, found]
      dsimp only [Option.map]
      rw [evicted]
      rfl

theorem of_evictOldest (sound : x.Sound) {key : Key} (evicted : x.evictOldest = (.ok (some key), y)) :
    y.Sound ∧ x.Evicts [key] y ∧ ∃ link ∈ x.links, link.key = key ∧ ∀ other ∈ x.links, link.stamp ≤ other.stamp := by
  rcases sound.evictOldest with ⟨-, same⟩ | ⟨link, mem, least, z, same, after, evicts⟩
  · simp [same] at evicted
  · rw [same] at evicted
    obtain ⟨rfl, rfl⟩ : link.key = key ∧ z = y := by simpa using evicted
    exact ⟨after, evicts, link, mem, rfl, least⟩

/-- What a run of evictions does: it takes its victims out, each once, and counts them. -/
theorem evicting (sound : x.Sound) {gone : List Key} (run : Evicting x gone y) : y.Sound ∧ x.Evicts gone y := by
  induction run with
  | done x => exact ⟨sound, .refl x⟩
  | step _ evicted _ ih =>
    obtain ⟨middle, first, -⟩ := sound.of_evictOldest evicted
    obtain ⟨after, rest⟩ := ih middle
    exact ⟨after, first.cons rest⟩

/-- The item limit is enforced by evictions, and holds afterwards. -/
theorem enforceItemLimit {x : Index} (sound : x.Sound) :
    ∃ gone y, Evicting x gone y ∧ x.enforceItemLimit = (.ok (), y) ∧ y.size ≤ y.maxItems := by
  by_cases above : x.maxItems < x.size
  · rcases sound.evictOldest with ⟨empty, -⟩ | ⟨link, -, -, y, evicted, after, -⟩
    · rw [sound.size_eq, empty] at above
      cases above
    · obtain ⟨gone, z, run, answer, holds⟩ := after.enforceItemLimit
      refine ⟨link.key :: gone, z, .step above evicted run, ?_, holds⟩
      rw [Index.enforceItemLimit, if_pos above]
      split
      · simp_all
      · simp_all
      · rename_i other same
        obtain ⟨-, rfl⟩ : _ ∧ y = other := by simpa [evicted] using same
        exact answer
  · exact ⟨[], x, .done x, by rw [Index.enforceItemLimit, if_neg above], Nat.not_lt.1 above⟩
termination_by x.linkCount
decreasing_by exact linkCount_evictOldest_lt evicted

end Sound

/-- The entry of a key is younger than those of all other keys. -/
def Youngest (x : Index) (key : Key) : Prop :=
  ∃ link ∈ x.links, link.key = key ∧ ∀ other ∈ x.links, other.key ≠ key → other.stamp < link.stamp

/-- The youngest entry is not the victim if the item limit allows one item, and it stays the youngest. -/
theorem Youngest.evictOldest {x y : Index} {key victim : Key} (youngest : x.Youngest key) (sound : x.Sound)
    (positive : 0 < x.maxItems) (above : x.maxItems < x.size) (evicted : x.evictOldest = (.ok (some victim), y)) :
    victim ≠ key ∧ y.Youngest key := by
  obtain ⟨-, first, link, mem, keyed, least⟩ := sound.of_evictOldest evicted
  obtain ⟨mine, memMine, same, others⟩ := youngest
  have ne : victim ≠ key := by
    rintro rfl
    -- nothing is older than the youngest entry, so it is the only one and the limit holds
    have alone (other : Link) (held : other ∈ x.links) : other.key = victim := by
      by_contra another
      obtain rfl : link = mine := List.inj_on_of_nodup_map sound.nodup_keys mem memMine (keyed.trans same.symm)
      exact UInt64.not_lt.2 (least other held) (others other held another)
    have keys : x.links.map (·.key) = List.replicate x.links.length victim := by
      rw [List.eq_replicate_iff]
      simpa using alone
    have one := sound.nodup_keys
    rw [keys, List.nodup_replicate] at one
    rw [sound.size_eq] at above
    omega
  have stays : mine.key ∉ [victim] := by
    rw [List.mem_singleton, same]
    exact ne.symm
  exact ⟨ne, mine, (first.links mine).2 ⟨memMine, stays⟩, same,
    fun other held => others other ((first.links other).1 held).1⟩

/-- The youngest entry stays if the item limit allows one item. -/
theorem Youngest.not_mem {x y : Index} {key : Key} {gone : List Key} (youngest : x.Youngest key) (sound : x.Sound)
    (positive : 0 < x.maxItems) (run : Evicting x gone y) : key ∉ gone := by
  induction run with
  | done x => exact List.not_mem_nil
  | step above evicted _ ih =>
    obtain ⟨middle, first, -⟩ := sound.of_evictOldest evicted
    obtain ⟨ne, still⟩ := youngest.evictOldest sound positive above evicted
    rw [List.mem_cons, not_or]
    exact ⟨ne.symm, ih still middle (first.shape.maxItems ▸ positive)⟩

end BlockCache.Index

import BlockCache.Index
import BlockCache.Proofs.Partition.Operations
import Mathlib.Algebra.GroupWithZero.Nat
import Mathlib.Data.List.Nodup
import Mathlib.Data.List.Perm.Subperm

/-!
# What an index holds

An index is sound if its partitions are, under its own clocks, and every link lies in the partition of its
key. `view` is the index as a map. What an operation does to the partition of a key is done to the index
by `place`, and the partitions of other keys stay.
-/

namespace BlockCache.Index

/-- The links of all partitions. -/
def links (x : Index) : List Link := x.partitions.toList.flatMap (·.chains.links)

/-- The item that an index holds under a key. -/
def view (x : Index) (key : Key) : Option Item := (x.home key).view key

/-- The index with another partition in a place, and other clocks. -/
def place (x : Index) (i : Fin x.partitions.size) (p : Partition) (clocks : Clocks) : Index :=
  { x.setPartition i p with clocks }

/-- Partitions are sound under the clocks that they share, and hold only keys that belong to them. -/
structure Sound (x : Index) : Prop where
  each : ∀ {i : Nat} {p : Partition}, x.partitions[i]? = some p → p.Sound x.clocks.stamps.issued
  routed : ∀ {i : Nat} {p : Partition}, x.partitions[i]? = some p → ∀ link ∈ p.chains.links, (x.route link.key).val = i

theorem getElem?_home (x : Index) (key : Key) : x.partitions[(x.route key).val]? = some (x.home key) := by
  simp [home]

theorem home_congr {x : Index} {key other : Key} (same : x.route key = x.route other) : x.home key = x.home other :=
  congrArg (fun i => x.partitions[i]) same

theorem mem_links {x : Index} {link : Link} :
    link ∈ x.links ↔ ∃ (i : Nat) (p : Partition), x.partitions[i]? = some p ∧ link ∈ p.chains.links := by
  rw [links, List.mem_flatMap]
  constructor
  · rintro ⟨p, mem, held⟩
    obtain ⟨i, inside⟩ := List.mem_iff_getElem?.1 mem
    exact ⟨i, p, by simpa using inside, held⟩
  · rintro ⟨i, p, inside, held⟩
    exact ⟨p, List.mem_iff_getElem?.2 ⟨i, by simpa using inside⟩, held⟩

theorem total_eq_sum (x : Index) (figure : Partition → Nat) :
    x.total figure = (x.partitions.toList.map figure).sum := by
  rw [total, ← Array.foldl_toList, List.sum_eq_foldl_nat, List.foldl_map]

section Place

variable (x : Index) (i : Fin x.partitions.size) (q : Partition) (clocks : Clocks)

theorem getElem?_place (j : Nat) :
    (x.place i q clocks).partitions[j]? = if i.val = j then some q else x.partitions[j]? := by
  rw [place, setPartition]
  rw [Array.getElem?_set]

theorem size_partitions_place : (x.place i q clocks).partitions.size = x.partitions.size := by
  simp [place, setPartition]

theorem route_place (key : Key) : ((x.place i q clocks).route key).val = (x.route key).val := by
  change key.hash.toNat % _ = key.hash.toNat % _
  rw [size_partitions_place]

theorem home_place (key : Key) : (x.place i q clocks).home key = if x.route key = i then q else x.home key := by
  have held := (x.place i q clocks).getElem?_home key
  rw [route_place, getElem?_place] at held
  split at held
  · rename_i here
    rw [if_pos (Fin.val_inj.1 here).symm]
    exact (Option.some.inj held).symm
  · rename_i elsewhere
    rw [if_neg fun here => elsewhere (congrArg Fin.val here.symm)]
    exact Option.some.inj (held.symm.trans (x.getElem?_home key))

theorem view_place (key : Key) :
    (x.place i q clocks).view key = if x.route key = i then q.view key else x.view key := by
  rw [view, home_place]
  split <;> rfl

theorem total_place (figure : Partition → Nat) :
    (x.place i q clocks).total figure + figure (getElem x.partitions i i.isLt) = x.total figure + figure q :=
  x.total_setPartition i q figure

theorem mem_links_place {link : Link} (mem : link ∈ (x.place i q clocks).links) :
    link ∈ q.chains.links ∨ link ∈ x.links := by
  obtain ⟨j, p, held, there⟩ := mem_links.1 mem
  rw [getElem?_place] at held
  split at held
  · obtain rfl := Option.some.inj held
    exact .inl there
  · exact .inr (mem_links.2 ⟨j, p, held, there⟩)

end Place

namespace Sound

variable {x : Index}

theorem home (sound : x.Sound) (key : Key) : (x.home key).Sound x.clocks.stamps.issued :=
  sound.each (x.getElem?_home key)

theorem mem_links_iff (sound : x.Sound) {link : Link} : link ∈ x.links ↔ link ∈ (x.home link.key).chains.links := by
  constructor
  · intro mem
    obtain ⟨i, p, held, there⟩ := mem_links.1 mem
    rw [← sound.routed held link there, getElem?_home] at held
    rwa [Option.some.inj held]
  · exact fun mem => mem_links.2 ⟨_, _, x.getElem?_home link.key, mem⟩

theorem view_ne_none_iff (sound : x.Sound) {key : Key} : x.view key ≠ none ↔ ∃ link ∈ x.links, link.key = key := by
  rw [view, ne_eq, (sound.home key).view_eq_none_iff, (sound.home key).chains.find?_eq_none_iff]
  simp only [not_forall, not_not, exists_prop]
  constructor
  · rintro ⟨link, mem, rfl⟩
    exact ⟨link, sound.mem_links_iff.2 mem, rfl⟩
  · rintro ⟨link, mem, rfl⟩
    exact ⟨link, sound.mem_links_iff.1 mem, rfl⟩

theorem key_of_view (sound : x.Sound) {key : Key} {item : Item} (shown : x.view key = some item) : item.key = key :=
  (sound.home key).key_of_view shown

/-- A key that a partition shows is at home there. -/
theorem route_eq_of_view (sound : x.Sound) {i : Fin x.partitions.size} {key : Key}
    (shown : (getElem x.partitions i i.isLt).view key ≠ none) : x.route key = i := by
  have held : x.partitions[i.val]? = some x.partitions[i] := by simp
  have there := sound.each held
  rw [ne_eq, there.view_eq_none_iff, there.chains.find?_eq_none_iff] at shown
  simp only [not_forall, not_not, exists_prop] at shown
  obtain ⟨link, mem, rfl⟩ := shown
  exact Fin.val_inj.1 (sound.routed held link mem)

theorem nodup_keys (sound : x.Sound) : (x.links.map (·.key)).Nodup := by
  rw [links, List.map_flatMap, List.nodup_flatMap]
  constructor
  · intro p mem
    obtain ⟨i, held⟩ := List.mem_iff_getElem?.1 mem
    exact (sound.each (i := i) (by simpa using held)).chains.unique
  · refine List.pairwise_iff_getElem.2 fun i j hi hj before => ?_
    refine List.disjoint_left.2 fun key first second => ?_
    obtain ⟨a, memA, rfl⟩ := List.mem_map.1 first
    obtain ⟨b, memB, same⟩ := List.mem_map.1 second
    have routeA := sound.routed (i := i) (by simp) a memA
    have routeB := sound.routed (i := j) (by simp) b memB
    rw [same] at routeB
    omega

theorem size_eq (sound : x.Sound) : x.size = x.links.length := by
  rw [size, total_eq_sum, links, List.length_flatMap]
  refine congrArg List.sum (List.map_congr_left fun p mem => ?_)
  obtain ⟨i, held⟩ := List.mem_iff_getElem?.1 mem
  exact (sound.each (i := i) (by simpa using held)).count

/-- An index that holds no more keys than another has no more entries. -/
theorem size_le (sound : x.Sound) {y : Index} (after : y.Sound)
    (within : ∀ key, y.view key ≠ none → x.view key ≠ none) : y.size ≤ x.size := by
  have subset : y.links.map (·.key) ⊆ x.links.map (·.key) := by
    intro key mem
    obtain ⟨link, there, rfl⟩ := List.mem_map.1 mem
    obtain ⟨old, held, same⟩ := sound.view_ne_none_iff.1 (within _ (after.view_ne_none_iff.2 ⟨link, there, rfl⟩))
    exact List.mem_map.2 ⟨old, held, same⟩
  have length := (List.subperm_of_subset after.nodup_keys subset).length_le
  rwa [List.length_map, List.length_map, ← sound.size_eq, ← after.size_eq] at length

/-- Replacing a partition by a sound one with keys of the same place keeps the index sound. -/
theorem place (sound : x.Sound) {i : Fin x.partitions.size} {q : Partition} {clocks : Clocks}
    (after : q.Sound clocks.stamps.issued) (later : x.clocks.stamps.issued ≤ clocks.stamps.issued)
    (routed : ∀ link ∈ q.chains.links, x.route link.key = i) : (x.place i q clocks).Sound where
  each := by
    intro j p held
    rw [getElem?_place] at held
    split at held
    · obtain rfl := Option.some.inj held
      exact after
    · exact (sound.each held).mono later
  routed := by
    intro j p held link mem
    rw [getElem?_place] at held
    rw [route_place]
    split at held
    · obtain rfl := Option.some.inj held
      rename_i here
      rw [routed link mem, here]
    · exact sound.routed held link mem

end Sound

theorem keys_eq (x : Index) : x.keys = x.links.map (·.key) := by
  rw [keys, links, List.map_flatMap]
  rfl

end BlockCache.Index

import BlockCache.Proofs.Eviction.Order
import BlockCache.Proofs.Index.Runs

/-!
# The order of eviction over all partitions

Stamps come from one clock, so no two entries of an index have one stamp, whatever partitions they are in: an
operation keeps the stamps of the entries it does not use, and gives the one it does use a stamp that nothing
has had. The entries are therefore in one order of age. Evictions for the item limit take the front of it, as
far as the limit asks for, and the order of the rest stays.
-/

open scoped List

namespace BlockCache.Index

variable {x y z : Index}

/-- Every link of `y` was there in `x`, but for the link of one key, which has a stamp that was not drawn before. -/
def Restamps (x y : Index) : Prop :=
  ∃ key, ∀ link ∈ y.links, link ∈ x.links ∨ link.key = key ∧ x.clocks.stamps.issued < link.stamp.toNat

theorem restamps_of_subset (kept : ∀ link ∈ y.links, link ∈ x.links) : x.Restamps y :=
  ⟨⟨[]⟩, fun link mem => .inl (kept link mem)⟩

/-- The next stamp is larger than all that were drawn before. -/
theorem lt_next {c : Counter} (few : c.issued + 1 < UInt64.size) : c.issued < c.next.1.toNat := by
  have next : c.next.1.toNat = c.issued + 1 := UInt64.toNat_ofNat_of_lt' few
  omega

namespace Sound

theorem nodup_links (sound : x.Sound) : x.links.Nodup := sound.nodup_keys.of_map

/-- A stamp that was just drawn is not that of another entry. -/
theorem distinct_of_restamps (sound : x.Sound) (distinct : Distinct x.links) (after : y.Sound)
    (restamps : x.Restamps y) : Distinct y.links := by
  obtain ⟨key, restamps⟩ := restamps
  refine after.nodup_links.map_on fun a memA b memB same => ?_
  rcases restamps a memA with oldA | ⟨keyA, newA⟩ <;> rcases restamps b memB with oldB | ⟨keyB, newB⟩
  · exact List.inj_on_of_nodup_map distinct oldA oldB same
  · have old := sound.stamps oldA
    rw [same] at old
    exact absurd newB (Nat.not_lt.2 old)
  · have old := sound.stamps oldB
    rw [← same] at old
    exact absurd newA (Nat.not_lt.2 old)
  · exact List.inj_on_of_nodup_map after.nodup_keys memA memB (keyA.trans keyB.symm)

/-- An eviction over all partitions takes the first entry in the order of age. -/
theorem oldestFirst_evictOldest (sound : x.Sound) (distinct : Distinct x.links) {key : Key}
    (evicted : x.evictOldest = (.ok (some key), y)) :
    ∃ link, link.key = key ∧ oldestFirst x.links = link :: oldestFirst y.links := by
  obtain ⟨after, evicts, link, mem, rfl, least⟩ := sound.of_evictOldest evicted
  refine ⟨link, rfl, oldestFirst_of_taken distinct mem least after.nodup_links fun other => ?_⟩
  rw [evicts.links, List.mem_singleton]
  refine and_congr_right fun held => not_congr ⟨fun keys => ?_, fun same => same ▸ rfl⟩
  exact List.inj_on_of_nodup_map sound.nodup_keys held mem keys

theorem distinct_of_evicts (distinct : Distinct x.links) (after : y.Sound) {gone : List Key} (evicts : x.Evicts gone y) :
    Distinct y.links := by
  refine after.nodup_links.map_on fun a memA b memB same => ?_
  exact List.inj_on_of_nodup_map distinct ((evicts.links a).1 memA).1 ((evicts.links b).1 memB).1 same

/-- The item limit evicts the shortest front of the entries by age after which it holds. -/
theorem shortest (sound : x.Sound) (distinct : Distinct x.links) {gone : List Key} (run : Evicting x gone y)
    (limited : y.size ≤ y.maxItems) :
    ∃ taken, taken.map (·.key) = gone ∧
      Shortest (fun links => links.length ≤ x.maxItems) (oldestFirst x.links) taken ∧
      (oldestFirst x.links).drop taken.length = oldestFirst y.links := by
  induction run with
  | done x =>
    refine ⟨[], rfl, .nil ?_, rfl⟩
    rwa [length_oldestFirst, ← sound.size_eq]
  | @step x y z key gone above evicted _ ih =>
    obtain ⟨link, rfl, first⟩ := sound.oldestFirst_evictOldest distinct evicted
    obtain ⟨middle, evicts, -⟩ := sound.of_evictOldest evicted
    obtain ⟨taken, rfl, front, left⟩ := ih middle (distinct_of_evicts distinct middle evicts) limited
    rw [evicts.shape.maxItems] at front
    rw [sound.size_eq, ← length_oldestFirst, first] at above
    rw [first]
    exact ⟨link :: taken, rfl, front.cons (Nat.not_le.2 above), left⟩

theorem links_eq_nil (sound : x.Sound) (empty : ∀ key, x.view key = none) : x.links = [] := by
  rw [List.eq_nil_iff_forall_not_mem]
  intro link mem
  exact sound.view_ne_none_iff.2 ⟨link, mem, rfl⟩ (empty link.key)

theorem restamps_get (sound : x.Sound) {key : Key} (few : (x.get key).2.clocks.stamps.issued < UInt64.size) :
    x.Restamps (x.get key).2 := by
  by_cases idle : x.policy.refreshesOnRead = false ∨ x.view key = none
  · rw [sound.get_idle idle]
    exact restamps_of_subset fun _ => id
  · obtain ⟨refreshes, shown⟩ := not_or.1 idle
    obtain ⟨clocks, links⟩ := sound.get_restamps (by simpa using refreshes) shown few
    rw [clocks] at few
    refine ⟨key, fun link mem => ?_⟩
    rcases links link mem with ⟨old, -⟩ | ⟨keyed, stamped⟩
    · exact .inl old
    · exact .inr ⟨keyed, stamped ▸ lt_next few⟩

/-- A write gives its entry a new stamp; what it evicts before and after leaves the others as they were. -/
theorem restamps_of_writing (sound : x.Sound) {op : Operation} {item : Item} (writing : op.writing? x.view = some item)
    (short : item.encodedLength ≤ (x.home item.key).size → item.encodedLength < UInt32.size)
    (few : (x.perform op).2.clocks.stamps.issued < UInt64.size) : x.Restamps (x.perform op).2 := by
  rcases sound.perform_of_writing writing short few with ⟨-, performed⟩ | ⟨-, _, _, _, z, commits, performed⟩
  · rw [performed]
    exact restamps_of_subset fun _ => id
  · obtain ⟨-, evicts⟩ := commits.sound.evicting commits.evicting
    rw [performed] at few ⊢
    rw [commits.clocks] at few
    refine ⟨item.key, fun link mem => ?_⟩
    rcases commits.writes.links link ((evicts.links link).1 mem).1 with ⟨old, -⟩ | ⟨keyed, stamped⟩
    · exact .inl old
    · exact .inr ⟨keyed, stamped ▸ lt_next few⟩

/-- An operation gives a new stamp to one entry at most. -/
theorem restamps_perform (sound : x.Sound) (op : Operation)
    (short : ∀ item, op.writing? x.view = some item → item.encodedLength ≤ (x.home item.key).size →
      item.encodedLength < UInt32.size) (few : (x.perform op).2.clocks.stamps.issued < UInt64.size) :
    x.Restamps (x.perform op).2 := by
  cases writing : op.writing? x.view with
  | some item => exact sound.restamps_of_writing writing (short item writing) few
  | none =>
    cases op with
    | put item => cases writing
    | putIfAbsent item =>
      obtain ⟨present, shown⟩ := Operation.present_of_idle writing
      rw [Index.perform, sound.putIfAbsent_of_present shown]
      exact restamps_of_subset fun _ => id
    | replace expected item =>
      have other : x.view item.key ≠ some expected := fun same =>
        Operation.other_of_idle writing ⟨sound.key_of_view same, same⟩
      rw [Index.perform, sound.replace_of_other other]
      exact restamps_of_subset fun _ => id
    | get key => exact sound.restamps_get few
    | remove key =>
      obtain ⟨y, removed, -, removes⟩ := sound.remove key
      rw [Index.perform, removed]
      exact restamps_of_subset removes.links
    | removeIf expected =>
      by_cases same : x.view expected.key = some expected
      · obtain ⟨y, removed, -, removes⟩ := sound.removeIf_of_same same
        rw [Index.perform, removed]
        exact restamps_of_subset removes.links
      · rw [Index.perform, sound.removeIf_of_other same]
        exact restamps_of_subset fun _ => id
    | clear =>
      obtain ⟨after, empties, -⟩ := sound.clear
      have none_left : x.clear.links = [] := after.links_eq_nil empties.view
      exact restamps_of_subset fun link mem => absurd (none_left ▸ mem) List.not_mem_nil
    | close =>
      obtain ⟨after, empties, -⟩ := Sound.close x
      have none_left : x.close.links = [] := after.links_eq_nil empties.view
      exact restamps_of_subset fun link mem => absurd (none_left ▸ mem) List.not_mem_nil

end Sound
end BlockCache.Index

import BlockCache.Proofs.Backends.Calls
import BlockCache.Proofs.Index.Order

/-!
# The recency list

The item limit by itself is a list: the item used last comes first, and what no longer fits falls off the end.
What counts as a use is all that the policies differ in. As long as no byte limit acts, an index of any number
of partitions answers every call as the list does, and the stamps in all its partitions together put the keys in the
order of the list. `Replays` relates the two; one operation keeps it, and so does a run.
-/

open scoped List

namespace BlockCache

/-- Items from the one used last to the one not used for longest. -/
structure RecencyList where
  policy : Policy
  /-- How many items there may be. -/
  limit : Nat
  items : List Item := []
  /-- How many items were stored. -/
  stored : Nat := 0
  /-- How many items fell off the end. -/
  dropped : Nat := 0

namespace RecencyList

/-- The item under a key. -/
def holds (r : RecencyList) (key : Key) : Option Item := r.items.find? (·.key = key)

/-- The items of the other keys. -/
def others (r : RecencyList) (key : Key) : List Item := r.items.filter (·.key ≠ key)

/-- Drops the last item if there is one too many. -/
def shorten (r : RecencyList) : RecencyList :=
  if r.limit < r.items.length then { r with items := r.items.dropLast, dropped := r.dropped + 1 } else r

/-- Puts an item at the front, under the next CAS value. -/
def store (r : RecencyList) (item : Item) : RecencyList :=
  shorten { r with
    items := { item with cas := (r.stored + 1).toUInt64 } :: r.others item.key
    stored := r.stored + 1 }

/-- Moves the item of a key to the front, if there is one. -/
def refresh (r : RecencyList) (key : Key) : RecencyList :=
  match r.holds key with
  | some item => { r with items := item :: r.others key }
  | none => r

/-- The list after an operation that stores nothing. -/
def use (r : RecencyList) : Index.Operation → RecencyList
  | .get key => if r.policy.refreshesOnRead then r.refresh key else r
  | .remove key => { r with items := r.others key }
  | .removeIf expected => if r.holds expected.key = some expected then { r with items := r.others expected.key } else r
  | .clear | .close => { r with items := [] }
  | .put _ | .putIfAbsent _ | .replace _ _ => r

/-- Performs an operation. -/
def perform (r : RecencyList) (op : Index.Operation) : Answer × RecencyList :=
  (op.answer r.holds,
    match op.writing? r.holds with
    | some item => r.store item
    | none => r.use op)

def call (r : RecencyList) : Store.Call → Store.Result × RecencyList
  | .perform op => (.answer (r.perform op).1, (r.perform op).2)
  | .contains key => (.contains (r.holds key).isSome, r)
  | .size => (.count r.items.length, r)
  | .keys => (.keys (r.items.map (·.key)), r)
  | .evictions => (.count r.dropped, r)

/-- The results of calls made one after the other. -/
def results (r : RecencyList) : List Store.Call → List Store.Result
  | [] => []
  | c :: later => (r.call c).1 :: results (r.call c).2 later

/-- The list after calls made one after the other. -/
def after (r : RecencyList) : List Store.Call → RecencyList
  | [] => r
  | c :: later => after (r.call c).2 later

section

variable {r : RecencyList} {item : Item} {key : Key}

theorem map_key_others (r : RecencyList) (key : Key) :
    (r.others key).map (·.key) = (r.items.map (·.key)).filter (· ≠ key) := by
  rw [others, List.filter_map]
  rfl

theorem length_others_le (r : RecencyList) (key : Key) : (r.others key).length ≤ r.items.length :=
  List.length_filter_le ..

theorem key_of_holds (held : r.holds key = some item) : item.key = key := by simpa using List.find?_some held

theorem length_others_lt (held : r.holds key = some item) : (r.others key).length < r.items.length := by
  refine List.length_filter_lt_length_iff_exists.2 ⟨item, List.mem_of_find?_eq_some held, ?_⟩
  simp [key_of_holds held]

theorem limit_perform (r : RecencyList) (op : Index.Operation) : (r.perform op).2.limit = r.limit := by
  rw [perform]
  split
  · simp only [store, shorten]
    split <;> rfl
  · cases op with
    | get key =>
      simp only [use, refresh]
      split
      · split <;> rfl
      · rfl
    | removeIf expected =>
      simp only [use]
      split <;> rfl
    | remove _ | clear | close | put _ | putIfAbsent _ | replace _ _ => rfl

/-- An operation keeps the list within its limit. -/
theorem length_perform_le (limited : r.items.length ≤ r.limit) (op : Index.Operation) :
    (r.perform op).2.items.length ≤ r.limit := by
  rw [perform]
  split
  · rename_i item _
    have others := r.length_others_le item.key
    simp only [store, shorten, List.length_cons]
    split
    · simp only [List.length_dropLast, List.length_cons]
      omega
    · simp only [List.length_cons]
      omega
  · cases op with
    | get key =>
      simp only [use, refresh]
      split
      · split
        · rename_i held
          have := length_others_lt held
          simp only [List.length_cons]
          omega
        · exact limited
      · exact limited
    | remove key => exact Nat.le_trans (r.length_others_le key) limited
    | removeIf expected =>
      simp only [use]
      split
      · exact Nat.le_trans (r.length_others_le expected.key) limited
      · exact limited
    | clear | close => exact Nat.zero_le _
    | put _ | putIfAbsent _ | replace _ _ => exact limited

/-- A call keeps the list within its limit, which stays. -/
theorem limited_call (limited : r.items.length ≤ r.limit) (c : Store.Call) :
    (r.call c).2.limit = r.limit ∧ (r.call c).2.items.length ≤ r.limit := by
  cases c with
  | perform op => exact ⟨r.limit_perform op, length_perform_le limited op⟩
  | contains _ | size | keys | evictions => exact ⟨rfl, limited⟩

/-- There are never more items than the limit allows. -/
theorem length_after_le {r : RecencyList} (limited : r.items.length ≤ r.limit) (calls : List Store.Call) :
    (r.after calls).items.length ≤ r.limit := by
  induction calls generalizing r with
  | nil => exact limited
  | cons c later ih =>
    obtain ⟨same, within⟩ := limited_call limited c
    rw [← same] at within ⊢
    exact ih within

end

end RecencyList

namespace Index

variable {x y z : Index} {r : RecencyList}

/-- The keys in the order of their stamps, over all partitions. -/
def byAge (x : Index) : List Key := (oldestFirst x.links).map (·.key)

/-- The index holds the items of the list, and its stamps order them as the list does. -/
structure Replays (x : Index) (r : RecencyList) : Prop where
  sound : x.Sound
  distinct : Distinct x.links
  order : r.items.map (·.key) = x.byAge.reverse
  shown : ∀ item ∈ r.items, x.view item.key = some item
  policy : x.policy = r.policy
  maxItems : x.maxItems = r.limit
  stored : x.clocks.cas.issued = r.stored
  dropped : x.evictions = r.dropped

theorem mem_byAge {key : Key} : key ∈ x.byAge ↔ ∃ link ∈ x.links, link.key = key := by
  simp [byAge]

/-- A link with a new stamp is the youngest. -/
theorem byAge_moved (sound : x.Sound) (distinct : Distinct x.links) {entry : Link}
    (split : y.links ~ entry :: x.links.filter (·.key ≠ entry.key))
    (fresh : x.clocks.stamps.issued < entry.stamp.toNat) :
    y.byAge.reverse = entry.key :: x.byAge.reverse.filter (· ≠ entry.key) := by
  have youngest (other : Link) (mem : other ∈ x.links.filter (·.key ≠ entry.key)) : other.stamp < entry.stamp :=
    UInt64.lt_iff_toNat_lt.2 (Nat.lt_of_le_of_lt (sound.stamps (List.mem_filter.1 mem).1) fresh)
  rw [byAge, oldestFirst_concat split (distinct.filter _) youngest, oldestFirst_filter distinct, List.map_append,
    List.reverse_append, byAge, List.filter_reverse, List.filter_map]
  rfl

theorem byAge_removed (distinct : Distinct x.links) {key : Key} (split : y.links ~ x.links.filter (·.key ≠ key)) :
    y.byAge.reverse = x.byAge.reverse.filter (· ≠ key) := by
  rw [byAge, oldestFirst_congr (distinct.filter _) split, oldestFirst_filter distinct, byAge, List.filter_reverse,
    List.filter_map]
  rfl

namespace Sound

/-- A link whose key still shows what it showed, and was not given a new stamp, is still there. -/
theorem mem_of_kept (sound : x.Sound) (after : y.Sound) {link : Link} (mem : link ∈ x.links)
    (view : y.view link.key = x.view link.key)
    (old : ∀ other ∈ y.links, other.key = link.key → other ∈ x.links) : link ∈ y.links := by
  have shown := sound.view_ne_none_iff.2 ⟨link, mem, rfl⟩
  rw [← view] at shown
  obtain ⟨other, there, same⟩ := after.view_ne_none_iff.1 shown
  rwa [← List.inj_on_of_nodup_map sound.nodup_keys (old other there same) mem same]

/-- Where one key's link is new and the other keys show what they showed, the other links are those of before. -/
theorem links_perm_of_moved (sound : x.Sound) (after : y.Sound) {key : Key} {stamp : UInt64}
    (links : ∀ link ∈ y.links, link ∈ x.links ∧ link.key ≠ key ∨ link.key = key ∧ link.stamp = stamp)
    (kept : ∀ other, other ≠ key → y.view other = x.view other) (shown : y.view key ≠ none) :
    ∃ entry : Link, entry.key = key ∧ entry.stamp = stamp ∧ y.links ~ entry :: x.links.filter (·.key ≠ entry.key) := by
  obtain ⟨entry, mem, rfl⟩ := after.view_ne_none_iff.1 shown
  have stamped : entry.stamp = stamp := by
    rcases links entry mem with ⟨-, other⟩ | ⟨-, same⟩
    · exact absurd rfl other
    · exact same
  refine ⟨entry, rfl, stamped, (List.perm_ext_iff_of_nodup after.nodup_links ?_).2 fun link => ?_⟩
  · exact List.nodup_cons.2 ⟨by simp, sound.nodup_links.filter _⟩
  · rw [List.mem_cons, List.mem_filter, decide_eq_true_eq]
    constructor
    · intro there
      rcases links link there with old | ⟨same, -⟩
      · exact .inr old
      · exact .inl (List.inj_on_of_nodup_map after.nodup_keys there mem same)
    · rintro (rfl | ⟨old, other⟩)
      · exact mem
      · refine sound.mem_of_kept after old (kept _ other) fun one there same => ?_
        rcases links one there with ⟨before, -⟩ | ⟨here, -⟩
        · exact before
        · exact absurd (same.symm.trans here) other

/-- Where one key is gone and the other keys show what they showed, the links are the others of before. -/
theorem links_perm_of_removed (sound : x.Sound) (after : y.Sound) {key : Key} (removes : x.Removes key y) :
    y.links ~ x.links.filter (·.key ≠ key) := by
  refine (List.perm_ext_iff_of_nodup after.nodup_links (sound.nodup_links.filter _)).2 fun link => ?_
  rw [List.mem_filter, decide_eq_true_eq]
  constructor
  · intro there
    refine ⟨removes.links link there, fun same => ?_⟩
    exact after.view_ne_none_iff.2 ⟨link, there, rfl⟩ (by rw [removes.view, if_pos same])
  · rintro ⟨old, other⟩
    exact sound.mem_of_kept after old (by rw [removes.view, if_neg other]) fun one there _ => removes.links one there

end Sound

namespace Replays

variable (replays : x.Replays r)

include replays

theorem view_eq (key : Key) : x.view key = r.holds key := by
  cases held : r.holds key with
  | some item =>
    have mem : item ∈ r.items := List.mem_of_find?_eq_some held
    rw [← RecencyList.key_of_holds held]
    exact replays.shown item mem
  | none =>
    have absent : key ∉ r.items.map (·.key) := by
      intro mem
      obtain ⟨item, there, same⟩ := List.mem_map.1 mem
      have := List.find?_eq_none.1 held item there
      simp [same] at this
    rw [replays.order, List.mem_reverse, mem_byAge] at absent
    by_contra shown
    exact absent (replays.sound.view_ne_none_iff.1 shown)

theorem length_eq : (oldestFirst x.links).length = r.items.length := by
  rw [← List.length_map (fun item : Item => item.key), replays.order, List.length_reverse, byAge, List.length_map]

/-- An item of the list is that of its key, so the other items have other keys. -/
theorem others_of_moved (after : y.Sound) {key : Key} {stamp : UInt64} (fresh : x.clocks.stamps.issued < stamp.toNat)
    (links : ∀ link ∈ y.links, link ∈ x.links ∧ link.key ≠ key ∨ link.key = key ∧ link.stamp = stamp)
    (kept : ∀ other, other ≠ key → y.view other = x.view other) (shown : y.view key ≠ none) :
    Distinct y.links ∧ key :: (r.others key).map (·.key) = y.byAge.reverse ∧
      ∀ item ∈ r.others key, y.view item.key = some item := by
  have sound := replays.sound
  obtain ⟨entry, rfl, rfl, split⟩ := sound.links_perm_of_moved after links kept shown
  refine ⟨?_, ?_, fun item mem => ?_⟩
  · refine sound.distinct_of_restamps replays.distinct after ⟨entry.key, fun link there => ?_⟩
    rcases links link there with ⟨old, -⟩ | ⟨keyed, stamped⟩
    · exact .inl old
    · exact .inr ⟨keyed, stamped ▸ fresh⟩
  · rw [byAge_moved sound replays.distinct split fresh, r.map_key_others, replays.order]
  · obtain ⟨there, other⟩ := List.mem_filter.1 mem
    rw [kept _ (by simpa using other)]
    exact replays.shown item there

theorem get {key : Key} (few : (x.get key).2.clocks.stamps.issued < UInt64.size) :
    (x.get key).2.Replays (r.use (.get key)) := by
  have sound := replays.sound
  by_cases idle : x.policy.refreshesOnRead = false ∨ x.view key = none
  · have same : r.use (.get key) = r := by
      rw [replays.policy, replays.view_eq] at idle
      rcases idle with never | absent
      · simp [RecencyList.use, never]
      · simp [RecencyList.use, RecencyList.refresh, absent]
    rw [sound.get_idle idle, same]
    exact replays
  · obtain ⟨refreshes, shown⟩ := not_or.1 idle
    rw [Bool.not_eq_false] at refreshes
    obtain ⟨clocks, links⟩ := sound.get_restamps refreshes shown few
    obtain ⟨y, answer, after, reads⟩ := sound.get key few
    obtain ⟨item, held⟩ := Option.ne_none_iff_exists'.1 shown
    have moved : r.use (.get key) = { r with items := item :: r.others key } := by
      rw [replays.policy] at refreshes
      rw [replays.view_eq] at held
      simp only [RecencyList.use, RecencyList.refresh, refreshes, held, if_true]
    rw [clocks] at few
    rw [answer] at clocks links ⊢
    obtain ⟨distinct, order, others⟩ := replays.others_of_moved after (lt_next few) links (fun other _ => reads.view other)
      (reads.view key ▸ shown)
    have keyed := sound.key_of_view held
    rw [moved]
    constructor
    · exact after
    · exact distinct
    · rw [← order, List.map_cons, keyed]
    · intro one mem
      rcases List.mem_cons.1 mem with rfl | there
      · rw [reads.view, keyed, held]
      · exact others one there
    · exact reads.shape.policy.trans replays.policy
    · exact reads.shape.maxItems.trans replays.maxItems
    · rw [reads.cas]
      exact replays.stored
    · exact reads.evictions.trans replays.dropped

theorem removes {key : Key} (after : y.Sound) (removes : x.Removes key y) :
    y.Replays { r with items := r.others key } where
  sound := after
  distinct := replays.sound.distinct_of_restamps replays.distinct after (restamps_of_subset removes.links)
  order := by
    rw [byAge_removed replays.distinct (replays.sound.links_perm_of_removed after removes), r.map_key_others, replays.order]
  shown item mem := by
    obtain ⟨there, other⟩ := List.mem_filter.1 mem
    rw [removes.view, if_neg (by simpa using other)]
    exact replays.shown item there
  policy := removes.shape.policy.trans replays.policy
  maxItems := removes.shape.maxItems.trans replays.maxItems
  stored := removes.clocks ▸ replays.stored
  dropped := removes.evictions.trans replays.dropped

/-- A write that evicts nothing for room puts its item at the front. -/
theorem writes {item : Item} (after : y.Sound) (writes : x.Writes (x.clocks.commit item).1 [] y)
    (few : x.clocks.stamps.issued + 1 < UInt64.size) :
    y.Replays { r with
      items := { item with cas := (r.stored + 1).toUInt64 } :: r.others item.key
      stored := r.stored + 1 } := by
  have new : y.view item.key = some { item with cas := (r.stored + 1).toUInt64 } := by
    rw [writes.view, ← replays.stored]
    exact if_pos rfl
  have kept (other : Key) (ne : other ≠ item.key) : y.view other = x.view other := by
    rw [writes.view, if_neg List.not_mem_nil]
    exact if_neg ne
  obtain ⟨distinct, order, others⟩ := replays.others_of_moved after (lt_next few) writes.links kept
    (new ▸ Option.some_ne_none _)
  constructor
  · exact after
  · exact distinct
  · exact order
  · intro one mem
    rcases List.mem_cons.1 mem with rfl | there
    · exact new
    · exact others one there
  · exact writes.shape.policy.trans replays.policy
  · exact writes.shape.maxItems.trans replays.maxItems
  · rw [writes.clocks, ← replays.stored]
    rfl
  · exact writes.evictions.trans replays.dropped

/-- Where one item is too many, the item limit evicts the last of the list. -/
theorem shorten (one_more : r.items.length ≤ r.limit + 1) {gone : List Key} (run : Evicting x gone z)
    (holds : z.size ≤ z.maxItems) : z.Replays r.shorten := by
  obtain ⟨final, evicts⟩ := replays.sound.evicting run
  obtain ⟨taken, rfl, front, rest⟩ := replays.sound.shortest replays.distinct run holds
  have length := replays.length_eq
  rw [replays.maxItems] at front
  have count := front.length_eq
  rw [RecencyList.shorten]
  split
  · rename_i above
    obtain ⟨link, rfl⟩ := List.length_eq_one_iff.1 (show taken.length = 1 by omega)
    have split : oldestFirst x.links = link :: oldestFirst z.links := by
      rw [← rest]
      exact front.split
    have order : r.items.map (·.key) = z.byAge.reverse ++ [link.key] := by
      rw [replays.order, byAge, split, List.map_cons, List.reverse_cons]
      rfl
    constructor
    · exact final
    · exact Sound.distinct_of_evicts replays.distinct final evicts
    · rw [List.map_dropLast, order, List.dropLast_concat]
    · intro item mem
      have there : item.key ∈ z.byAge := by
        have inside : item.key ∈ r.items.dropLast.map (·.key) := List.mem_map_of_mem mem
        rw [List.map_dropLast, order, List.dropLast_concat] at inside
        exact List.mem_reverse.1 inside
      have shown := final.view_ne_none_iff.2 (mem_byAge.1 there)
      rw [evicts.view] at shown ⊢
      rw [if_neg fun gone => shown (if_pos gone)]
      exact replays.shown item ((List.dropLast_sublist _).subset mem)
    · exact evicts.shape.policy.trans replays.policy
    · exact evicts.shape.maxItems.trans replays.maxItems
    · rw [evicts.clocks]
      exact replays.stored
    · rw [evicts.evictions, replays.dropped]
      rfl
  · rename_i within
    obtain rfl := List.length_eq_zero_iff.1 (show taken.length = 0 by omega)
    cases run
    exact replays

theorem empties (after : y.Sound) (empties : x.Empties y) : y.Replays { r with items := [] } := by
  have links := after.links_eq_nil empties.view
  constructor
  · exact after
  · rw [links]
    exact List.nodup_nil
  · rw [byAge, links, oldestFirst, List.mergeSort_nil]
    rfl
  · exact nofun
  · exact empties.policy.trans replays.policy
  · exact empties.maxItems.trans replays.maxItems
  · exact empties.clocks ▸ replays.stored
  · exact empties.evictions.trans replays.dropped

/-- An operation that writes nothing is a use. -/
theorem use {op : Operation} (idle : op.writing? x.view = none)
    (few : (x.perform op).2.clocks.stamps.issued < UInt64.size) : (x.perform op).2.Replays (r.use op) := by
  have sound := replays.sound
  cases op with
  | put item => cases idle
  | putIfAbsent item =>
    obtain ⟨present, shown⟩ := Operation.present_of_idle idle
    rw [Index.perform, sound.putIfAbsent_of_present shown]
    exact replays
  | replace expected item =>
    have other := Operation.other_of_idle idle
    rw [Index.perform, sound.replace_of_other fun same => other ⟨sound.key_of_view same, same⟩]
    exact replays
  | get key => exact replays.get few
  | remove key =>
    obtain ⟨y, answer, after, removes⟩ := sound.remove key
    rw [Index.perform, answer]
    exact replays.removes after removes
  | removeIf expected =>
    rw [RecencyList.use, ← replays.view_eq]
    by_cases same : x.view expected.key = some expected
    · obtain ⟨y, answer, after, removes⟩ := sound.removeIf_of_same same
      rw [Index.perform, answer, if_pos same]
      exact replays.removes after removes
    · rw [Index.perform, sound.removeIf_of_other same, if_neg same]
      exact replays
  | clear =>
    obtain ⟨after, empties, -⟩ := sound.clear
    exact replays.empties after empties
  | close =>
    obtain ⟨after, empties, -⟩ := Sound.close x
    exact replays.empties after empties

/-- An operation that meets no byte limit is answered by the index as by the list, and keeps the two together. -/
theorem perform (limited : r.items.length ≤ r.limit) {op : Operation} (roomy : (Store.blocks x).Roomy (.perform op))
    (few : (x.perform op).2.clocks.stamps.issued < UInt64.size) :
    (x.perform op).1 = .ok (r.perform op).1 ∧ (x.perform op).2.Replays (r.perform op).2 := by
  have sound := replays.sound
  have view : x.view = r.holds := funext replays.view_eq
  rw [RecencyList.perform, ← view]
  cases writing : op.writing? x.view with
  | none =>
    obtain ⟨y, performed, -⟩ := sound.perform_of_not_writing writing few
    exact ⟨by rw [performed], replays.use writing few⟩
  | some item =>
    obtain ⟨accepted, room⟩ := roomy item writing
    rw [Store.perform_blocks] at accepted
    obtain ⟨first, y, second, z, commits, performed⟩ := sound.commits_of_accepted writing accepted few
    obtain rfl := commits.first_eq_nil room
    rw [performed] at few ⊢
    rw [commits.clocks] at few
    have middle := replays.writes commits.sound commits.writes few
    refine ⟨rfl, middle.shorten ?_ commits.evicting (commits.limited ?_)⟩
    · exact Nat.succ_le_succ (Nat.le_trans (r.length_others_le item.key) limited)
    · rw [sound.size_eq, ← length_oldestFirst, replays.length_eq, replays.maxItems]
      exact limited

theorem keys_perm : x.keys ~ r.items.map (·.key) := by
  rw [keys_eq, replays.order]
  exact ((oldestFirst_perm x.links).symm.map _).trans (List.reverse_perm _).symm

/-- A call that meets no byte limit is answered by the index as by the list, and keeps the two together. -/
theorem call (limited : r.items.length ≤ r.limit) {c : Store.Call} (roomy : (Store.blocks x).Roomy c)
    (few : ((Store.blocks x).call c).2.drawn < UInt64.size) :
    ((Store.blocks x).call c).1 = .ok (r.call c).1 ∧
      ∃ y, ((Store.blocks x).call c).2 = .blocks y ∧ y.Replays (r.call c).2 := by
  cases c with
  | perform op =>
    rw [Store.call, Store.perform_blocks] at few ⊢
    obtain ⟨answer, after⟩ := replays.perform limited roomy few
    exact ⟨by rw [answer]; rfl, _, rfl, after⟩
  | contains key =>
    refine ⟨?_, x, rfl, replays⟩
    rw [Store.call, Store.contains, replays.sound.contains_eq, replays.view_eq]
    rfl
  | size =>
    refine ⟨?_, x, rfl, replays⟩
    rw [Store.call, Store.size, replays.sound.size_eq, ← length_oldestFirst, replays.length_eq]
    rfl
  | keys =>
    refine ⟨?_, x, rfl, replays⟩
    rw [Store.call, Store.keys, Multiset.coe_eq_coe.2 replays.keys_perm]
    rfl
  | evictions =>
    refine ⟨?_, x, rfl, replays⟩
    rw [Store.call, Store.evictions, replays.dropped]
    rfl

omit replays in
theorem run (replays : x.Replays r) (limited : r.items.length ≤ r.limit) {calls : List Store.Call}
    (roomy : (Store.blocks x).RoomyRun calls) (few : ((Store.blocks x).after calls).drawn < UInt64.size) :
    (Store.blocks x).results calls = (r.results calls).map .ok ∧
      ∃ y, (Store.blocks x).after calls = .blocks y ∧ y.Replays (r.after calls) := by
  induction calls generalizing x r with
  | nil => exact ⟨rfl, x, rfl, replays⟩
  | cons c later ih =>
    have drawn := ((Store.blocks x).call c).2.drawn_le_after later
    obtain ⟨result, y, next, after⟩ := replays.call limited roomy.1 (Nat.lt_of_le_of_lt drawn few)
    obtain ⟨same, within⟩ := RecencyList.limited_call limited c
    have rest := roomy.2
    rw [Store.after, next] at few
    rw [next] at rest
    rw [Store.results, Store.after, next, result]
    obtain ⟨results, last⟩ := ih after (same ▸ within) rest few
    exact ⟨congrArg _ results, last⟩

end Replays

theorem replays_new (s : StorageSettings) : (new s).Replays { policy := s.eviction, limit := s.maxItems } := by
  have links := (Sound.new s).links_eq_nil (view_new s)
  constructor
  · exact .new s
  · rw [links]
    exact List.nodup_nil
  · rw [byAge, links, oldestFirst, List.mergeSort_nil]
    rfl
  · exact nofun
  · rfl
  · rfl
  · rfl
  · exact evictions_new s

end Index

namespace Store

/-- On a run in which no byte limit acts, an index of any number of partitions answers every call as the recency list
of its item limit and policy does, and ends up with the items of the list. No two of its stamps are the same, and
they put the keys of all partitions in the order of the list, last used last. -/
theorem recency_run {s : StorageSettings} {calls : List Call} (roomy : (blocks (.new s)).RoomyRun calls)
    (few : ((blocks (.new s)).after calls).drawn < UInt64.size) :
    let r : RecencyList := { policy := s.eviction, limit := s.maxItems }
    (blocks (.new s)).results calls = (r.results calls).map .ok ∧ (r.after calls).items.length ≤ s.maxItems ∧
      ∃ x, (blocks (.new s)).after calls = blocks x ∧ x.view = (r.after calls).holds ∧
        x.keys ~ (r.after calls).items.map (·.key) ∧ Distinct x.links ∧
        (oldestFirst x.links).map (·.key) = ((r.after calls).items.map (·.key)).reverse := by
  intro r
  have empty : r.items.length ≤ r.limit := Nat.zero_le _
  obtain ⟨results, x, same, replays⟩ := (Index.replays_new s).run empty roomy few
  refine ⟨results, RecencyList.length_after_le empty calls, x, same, funext replays.view_eq, replays.keys_perm,
    replays.distinct, ?_⟩
  rw [replays.order, List.reverse_reverse]
  rfl

/-- Under the policy that counts reads and a limit of two items, the key that was not read goes, whatever partitions
the keys are in. -/
theorem recency_run_read_key :
    let a : Item := { key := ⟨[97]⟩, data := [1] }
    let b : Item := { key := ⟨[98]⟩, data := [2] }
    let c : Item := { key := ⟨[99]⟩, data := [3] }
    ∃ x, (blocks (.new
        { partitions := 2, bucketsPerPartition := 2, blockSize := 64, maxBytes := 512, ceilingBytes := 0, maxItems := 2 })).after
        [.perform (.put a), .perform (.put b), .perform (.get a.key), .contains b.key, .perform (.put c)] = blocks x ∧
      (oldestFirst x.links).map (·.key) = [a.key, c.key] := by
  intro a b c
  obtain ⟨-, -, x, same, -, -, -, order⟩ := recency_run (s :=
    { partitions := 2, bucketsPerPartition := 2, blockSize := 64, maxBytes := 512, ceilingBytes := 0, maxItems := 2 })
    (show RoomyRun _ [.perform (.put a), .perform (.put b), .perform (.get a.key), .contains b.key, .perform (.put c)] by
      decide +kernel) (by decide +kernel)
  exact ⟨x, same, order.trans (by decide +kernel)⟩

end Store
end BlockCache

import BlockCache.Proofs.Index.Runs
import BlockCache.Proofs.Partition.Clearing

/-!
# Alike indexes

Two indexes are alike if their partitions are, place by place, and their clocks and eviction counts are as
far apart as those of the partitions. The oldest entry of both then lies in the same place, so that
the item limit takes the same victims, and every operation leaves them alike. An index that was cleared
is alike to the one that was built.
-/

namespace BlockCache.Index

/-- The loop that enforces the item limit, without the proof that it ends. -/
theorem enforceItemLimit_eq (x : Index) : x.enforceItemLimit =
    if x.maxItems < x.size then
      match x.evictOldest with
      | (.error e, y) => (.error e, y)
      | (.ok none, y) => (.ok (), y)
      | (.ok (some _), y) => y.enforceItemLimit
    else (.ok (), x) := by
  rw [enforceItemLimit]
  rcases x.evictOldest with ⟨_ | _ | _, _⟩ <;> rfl

section AsNew

/-- The index as it was built. -/
def asNew (x : Index) : Index :=
  { x with
    partitions := x.partitions.map (·.asNew)
    clocks := {}
    nonempty := by simpa using x.nonempty }

theorem asNew_new (s : StorageSettings) : (new s).asNew = new s := by
  simp only [asNew, new, Array.map_replicate, Partition.asNew_new]

variable (x : Index)

theorem asNew_place {i : Fin x.partitions.size} {q : Partition} (clocks : Clocks)
    (kept : q.asNew = (getElem x.partitions i i.isLt).asNew) : (x.place i q clocks).asNew = x.asNew := by
  have same : (x.partitions.set i q).map (·.asNew) = x.partitions.map (·.asNew) := by
    rw [Array.map_set, kept]
    refine Array.ext_getElem? fun j => ?_
    rw [Array.getElem?_set, Array.getElem?_map]
    split
    · rename_i here
      simp [← here]
    · rfl
  simp only [asNew, place, setPartition, same]

theorem asNew_evictOldest : x.evictOldest.2.asNew = x.asNew := by
  unfold evictOldest
  cases x.oldestPartition? with
  | none => rfl
  | some i => exact x.asNew_place x.clocks (x.partitions[i].asNew_evictOne none)

theorem asNew_enforceItemLimit (x : Index) : x.enforceItemLimit.2.asNew = x.asNew := by
  rw [enforceItemLimit_eq]
  split
  · have kept := x.asNew_evictOldest
    rcases evicted : x.evictOldest with ⟨e | _ | key, y⟩
    all_goals rw [evicted] at kept
    · exact kept
    · exact kept
    · exact (asNew_enforceItemLimit y).trans kept
  · rfl
termination_by x.linkCount
decreasing_by exact linkCount_evictOldest_lt evicted

theorem asNew_put (item : Item) : (x.put item).2.asNew = x.asNew := by
  have kept := (x.home item.key).asNew_put x.clocks item
  rw [put_eq]
  generalize (x.home item.key).put x.clocks item = written at kept ⊢
  obtain ⟨answer, p, clocks⟩ := written
  have placed := x.asNew_place clocks kept
  cases answer with
  | error e => exact placed
  | ok old =>
    have limited := (x.place (x.route item.key) p clocks).asNew_enforceItemLimit
    dsimp only
    generalize (x.place (x.route item.key) p clocks).enforceItemLimit = last at limited ⊢
    rcases last with ⟨e | _, y⟩ <;> exact limited.trans placed

theorem asNew_putIfAbsent (item : Item) : (x.putIfAbsent item).2.asNew = x.asNew := by
  have kept := (x.home item.key).asNew_putIfAbsent x.clocks item
  rw [putIfAbsent_eq]
  generalize (x.home item.key).putIfAbsent x.clocks item = written at kept ⊢
  obtain ⟨answer, p, clocks⟩ := written
  have placed := x.asNew_place clocks kept
  rcases answer with e | _ | present
  · exact placed
  · have limited := (x.place (x.route item.key) p clocks).asNew_enforceItemLimit
    dsimp only
    generalize (x.place (x.route item.key) p clocks).enforceItemLimit = last at limited ⊢
    rcases last with ⟨e | _, y⟩ <;> exact limited.trans placed
  · exact placed

theorem asNew_clear : x.clear.asNew = x.asNew := by
  simp only [asNew, clear, Array.map_map, Function.comp_def, Partition.asNew_clear]

/-- Only closing an index changes what it was built with. -/
theorem asNew_perform {op : Operation} (opened : op ≠ .close) : (x.perform op).2.asNew = x.asNew := by
  cases op with
  | put item => exact x.asNew_put item
  | putIfAbsent item => exact x.asNew_putIfAbsent item
  | replace expected item =>
    rw [perform, replace]
    split
    · exact x.asNew_place _ ((x.home item.key).asNew_replaceIf x.clocks expected item)
    · rfl
  | get key => exact x.asNew_place _ ((x.home key).asNew_get x.clocks key x.policy.refreshesOnRead)
  | remove key => exact x.asNew_place x.clocks ((x.home key).asNew_remove key)
  | removeIf expected => exact x.asNew_place x.clocks ((x.home expected.key).asNew_removeIf expected)
  | clear => exact x.asNew_clear
  | close => exact absurd rfl opened

theorem asNew_run {ops : List Operation} (opened : .close ∉ ops) : (x.run ops).asNew = x.asNew := by
  induction ops generalizing x with
  | nil => rfl
  | cons op ops ih =>
    rw [List.mem_cons, not_or] at opened
    exact (ih _ opened.2).trans (x.asNew_perform (Ne.symm opened.1))

end AsNew

/-- `x` is `y` but for the bytes of the arenas, with stamps `t` and CAS values `c` later and `v` more evictions. -/
structure Alike (t c : UInt64) (v : Nat) (x y : Index) : Prop where
  partitions : x.partitions.size = y.partitions.size
  each : ∀ {i : Nat} {p q : Partition}, x.partitions[i]? = some p → y.partitions[i]? = some q → ∃ w, p.Alike t w q
  policy : x.policy = y.policy
  maxItems : x.maxItems = y.maxItems
  clocks : x.clocks.Later t c y.clocks
  evictions : x.evictions = y.evictions + v

/-- Two indexes answer the same and are left alike. -/
structure Agree {α : Type} (t c : UInt64) (v : Nat) (a b : Except StoreError α × Index) : Prop where
  answer : a.1 = b.1
  after : Alike t c v a.2 b.2

theorem Agree.eq {α : Type} {t c : UInt64} {v : Nat} {a b : Except StoreError α × Index} (agree : Agree t c v a b) :
    ∃ answer x y, a = (answer, x) ∧ b = (answer, y) ∧ Alike t c v x y :=
  ⟨b.1, a.2, b.2, by rw [← agree.answer], rfl, agree.after⟩

/-- Once cleared, an index is alike to the one that was built. -/
theorem alike_clear (x : Index) {t c : UInt64} (stamps : x.clocks.stamps.issued = t.toNat)
    (cas : x.clocks.cas.issued = c.toNat) : Alike t c x.evictions x.clear x.asNew where
  partitions := by simp [clear, asNew]
  each {i p q} left right := by
    have cleared : x.clear.partitions[i]? = x.partitions[i]?.map (·.clear) := Array.getElem?_map
    have built : x.asNew.partitions[i]? = x.partitions[i]?.map (·.asNew) := Array.getElem?_map
    rw [cleared] at left
    obtain ⟨old, held, rfl⟩ := Option.map_eq_some_iff.1 left
    rw [built, held] at right
    obtain rfl := Option.some.inj right
    exact ⟨_, old.alike_clear t⟩
  policy := rfl
  maxItems := rfl
  clocks := ⟨stamps.trans (Nat.zero_add _).symm, cas.trans (Nat.zero_add _).symm⟩
  evictions := by
    have kept : x.clear.evictions = x.evictions := total_of_map (f := Partition.clear) rfl fun _ => rfl
    have none_yet : x.asNew.evictions = 0 := by
      rw [evictions, total_eq_sum, asNew, Array.toList_map, List.map_map]
      refine List.sum_eq_zero fun n mem => ?_
      obtain ⟨p, -, rfl⟩ := List.mem_map.1 mem
      rfl
    rw [kept, none_yet, Nat.zero_add]

namespace Alike

variable {t c : UInt64} {v : Nat} {x y : Index}

section Figures

variable (alike : Alike t c v x y)

include alike

/-- What is the same in alike partitions is the same in alike indexes, partition by partition. -/
theorem map_eq {α : Type} {figure : Partition → α}
    (same : ∀ {p q : Partition} {w : Nat}, p.Alike t w q → figure p = figure q) :
    x.partitions.toList.map figure = y.partitions.toList.map figure := by
  refine List.ext_getElem? fun i => ?_
  rw [List.getElem?_map, List.getElem?_map, Array.getElem?_toList, Array.getElem?_toList]
  rcases left : x.partitions[i]? with - | p
  · have outside := Array.getElem?_eq_none_iff.1 left
    rw [Array.getElem?_eq_none (alike.partitions ▸ outside)]
  · have inside := (Array.getElem?_eq_some_iff.1 left).1
    rcases right : y.partitions[i]? with - | q
    · have outside := Array.getElem?_eq_none_iff.1 right
      rw [alike.partitions] at inside
      omega
    · obtain ⟨w, alike⟩ := alike.each left right
      exact congrArg some (same alike)

theorem total_eq {figure : Partition → Nat}
    (same : ∀ {p q : Partition} {w : Nat}, p.Alike t w q → figure p = figure q) : x.total figure = y.total figure := by
  rw [total_eq_sum, total_eq_sum, alike.map_eq same]

theorem size : x.size = y.size := alike.total_eq fun alike => alike.count

theorem memoryCapacity : x.memoryCapacity = y.memoryCapacity := alike.total_eq fun alike => alike.size

theorem memoryUsed : x.memoryUsed = y.memoryUsed := alike.total_eq fun alike => alike.usedBytes

theorem keys : x.keys = y.keys := by
  rw [Index.keys, Index.keys, List.flatMap_def, List.flatMap_def, alike.map_eq fun alike => alike.keys]

theorem route (key : Key) : (x.route key).val = (y.route key).val := by
  change key.hash.toNat % _ = key.hash.toNat % _
  rw [alike.partitions]

theorem home (key : Key) : ∃ w, (x.home key).Alike t w (y.home key) := by
  have held := y.getElem?_home key
  rw [← alike.route] at held
  exact alike.each (x.getElem?_home key) held

theorem small (small : x.Small) : y.Small := fun key => by
  obtain ⟨w, home⟩ := alike.home key
  rw [← home.size]
  exact small key

end Figures

/-- Alike partitions in the same place of both keep the indexes alike. -/
theorem place (alike : Alike t c v x y) {i : Fin x.partitions.size} {j : Fin y.partitions.size} (same : i.val = j.val)
    {p q : Partition} {w : Nat} (before : x.partitions[i].Alike t w y.partitions[j]) (after : p.Alike t w q)
    {k l : Clocks} (later : k.Later t c l) : Alike t c v (x.place i p k) (y.place j q l) where
  partitions := by rw [size_partitions_place, size_partitions_place, alike.partitions]
  each {n a b} left right := by
    rw [getElem?_place] at left right
    rw [← same] at right
    split at left
    · rename_i here
      obtain rfl := Option.some.inj left
      rw [if_pos here] at right
      obtain rfl := Option.some.inj right
      exact ⟨w, after⟩
    · rename_i elsewhere
      rw [if_neg elsewhere] at right
      exact alike.each left right
  policy := alike.policy
  maxItems := alike.maxItems
  clocks := later
  evictions := by
    have left := x.total_place i p k (·.evictions)
    have right := y.total_place j q l (·.evictions)
    have total := alike.evictions
    have old := before.evictions
    have new := after.evictions
    unfold Index.evictions at total ⊢
    omega

section Victims

/-- The oldest entries so far of alike indexes: one stamp is `t` later than the other, in the same place. -/
structure Abreast {m n : Nat} (t : UInt64) (best : Option (UInt64 × Fin m)) (other : Option (UInt64 × Fin n)) :
    Prop where
  same : best.map (fun entry => (entry.1, entry.2.val)) = other.map fun entry => (entry.1 + t, entry.2.val)
  room : ∀ entry ∈ other, entry.1.toNat + t.toNat < UInt64.size

theorem Abreast.none {m n : Nat} (t : UInt64) : Abreast (m := m) (n := n) t none none := ⟨rfl, nofun⟩

theorem Abreast.some {m n : Nat} {t stamp : UInt64} {i : Fin m} {j : Fin n} (same : i.val = j.val)
    (room : stamp.toNat + t.toNat < UInt64.size) : Abreast t (some (stamp + t, i)) (some (stamp, j)) :=
  ⟨by simp [same], by simpa using room⟩

variable (alike : Alike t c v x y)

include alike

theorem at_place {i : Fin x.partitions.size} {j : Fin y.partitions.size} (same : i.val = j.val) :
    ∃ w, x.partitions[i].Alike t w y.partitions[j] :=
  alike.each (i := i.val) (by simp) (by simp [same])

theorem abreast_older {best : Option (UInt64 × Fin x.partitions.size)}
    {other : Option (UInt64 × Fin y.partitions.size)} (abreast : Abreast t best other)
    {i : Fin x.partitions.size} {j : Fin y.partitions.size} (same : i.val = j.val) :
    Abreast t (x.older best i) (y.older other j) := by
  obtain ⟨w, here⟩ := alike.at_place same
  have oldest : x.partitions[i].oldestStamp? = y.partitions[j].oldestStamp?.map (· + t) := by
    rw [Partition.oldestStamp?, Partition.oldestStamp?, Queue.oldest?, Queue.oldest?, here.queue.oldestWhere?,
      Option.map_map, Option.map_map]
    rfl
  unfold older
  rw [oldest]
  cases found : y.partitions[j].oldestStamp? with
  | none => exact abreast
  | some stamp =>
    obtain ⟨entry, chosen, rfl⟩ := Option.map_eq_some_iff.1 found
    have room := here.queue.room _ _ (Queue.get?_of_oldest? chosen)
    rcases other with - | ⟨least, j'⟩
    · obtain rfl : best = Option.none := by simpa using abreast.same
      exact .some same room
    · obtain ⟨⟨before, i'⟩, rfl, both⟩ := Option.map_eq_some_iff.1 abreast.same
      obtain ⟨rfl, place⟩ := Prod.mk.inj both
      have bound : least.toNat + t.toNat < UInt64.size := abreast.room _ rfl
      -- Neither stamp wraps when it is raised, so raising both keeps their order.
      have order : entry.1 + t < least + t ↔ entry.1 < least := by
        rw [UInt64.lt_iff_toNat_lt, UInt64.lt_iff_toNat_lt, UInt64.toNat_add, UInt64.toNat_add,
          Nat.mod_eq_of_lt room, Nat.mod_eq_of_lt bound]
        omega
      dsimp only [Option.map]
      by_cases smaller : entry.1 < least
      · rw [if_pos (order.2 smaller), if_pos smaller]
        exact .some same room
      · rw [if_neg fun less => smaller (order.1 less), if_neg smaller]
        exact .some place bound

theorem abreast_foldl {is : List (Fin x.partitions.size)} {js : List (Fin y.partitions.size)}
    (same : is.map Fin.val = js.map Fin.val) {best : Option (UInt64 × Fin x.partitions.size)}
    {other : Option (UInt64 × Fin y.partitions.size)} (abreast : Abreast t best other) :
    Abreast t (is.foldl x.older best) (js.foldl y.older other) := by
  induction is generalizing js best other with
  | nil =>
    obtain rfl : js = [] := by simpa using same.symm
    exact abreast
  | cons i is ih =>
    obtain ⟨j, js, rfl, head, tail⟩ := List.map_eq_cons_iff.1 same.symm
    exact ih tail.symm (alike.abreast_older abreast head.symm)

/-- The oldest entry of both lies in the same place. -/
theorem oldestPartition?_val : x.oldestPartition?.map Fin.val = y.oldestPartition?.map Fin.val := by
  have places : (List.finRange x.partitions.size).map Fin.val = (List.finRange y.partitions.size).map Fin.val := by
    rw [List.map_coe_finRange_eq_range, List.map_coe_finRange_eq_range, alike.partitions]
  have found := congrArg (Option.map Prod.snd) (alike.abreast_foldl places (.none t)).same
  rw [Option.map_map, Option.map_map] at found
  rw [oldestPartition?, oldestPartition?, Option.map_map, Option.map_map]
  exact found

theorem evictOldest : Agree t c v x.evictOldest y.evictOldest := by
  have same := alike.oldestPartition?_val
  unfold Index.evictOldest
  rcases chosen : y.oldestPartition? with - | j
  · rw [chosen] at same
    rw [Option.map_eq_none_iff.1 same]
    exact ⟨rfl, alike⟩
  · rw [chosen] at same
    obtain ⟨i, found, place⟩ := Option.map_eq_some_iff.1 same
    rw [found]
    obtain ⟨w, here⟩ := alike.at_place place
    obtain ⟨answer, after⟩ := here.evictOne none
    exact ⟨answer, alike.place place here after alike.clocks⟩

end Victims

theorem enforceItemLimit {x y : Index} (alike : Alike t c v x y) :
    Agree t c v x.enforceItemLimit y.enforceItemLimit := by
  rw [enforceItemLimit_eq, enforceItemLimit_eq y, alike.size, alike.maxItems]
  split
  · obtain ⟨answer, x', y', evicted, chosen, after⟩ := alike.evictOldest.eq
    rw [evicted, chosen]
    rcases answer with e | _ | key
    · exact ⟨rfl, after⟩
    · exact ⟨rfl, after⟩
    · exact after.enforceItemLimit
  · exact ⟨rfl, alike⟩
termination_by x.linkCount
decreasing_by exact linkCount_evictOldest_lt evicted

/-- The same done to all partitions of both indexes leaves them alike, if it leaves partitions alike. -/
theorem of_map (alike : Alike t c v x y) {f : Partition → Partition} {x' y' : Index}
    (left : x'.partitions = x.partitions.map f) (right : y'.partitions = y.partitions.map f)
    (kept : ∀ {p q : Partition} {w : Nat}, p.Alike t w q → (f p).Alike t w (f q))
    (evictions : ∀ p : Partition, (f p).evictions = p.evictions) (policy : x'.policy = y'.policy)
    (maxItems : x'.maxItems = y'.maxItems) (clocks : x'.clocks.Later t c y'.clocks) : Alike t c v x' y' where
  partitions := by rw [left, right, Array.size_map, Array.size_map, alike.partitions]
  each {i p q} heldLeft heldRight := by
    rw [left, Array.getElem?_map] at heldLeft
    rw [right, Array.getElem?_map] at heldRight
    obtain ⟨p, here, rfl⟩ := Option.map_eq_some_iff.1 heldLeft
    obtain ⟨q, there, rfl⟩ := Option.map_eq_some_iff.1 heldRight
    obtain ⟨w, both⟩ := alike.each here there
    exact ⟨w, kept both⟩
  policy := policy
  maxItems := maxItems
  clocks := clocks
  evictions := by
    rw [Index.evictions, Index.evictions, total_of_map left evictions, total_of_map right evictions]
    exact alike.evictions

theorem clear (alike : Alike t c v x y) : Alike t c v x.clear y.clear :=
  alike.of_map rfl rfl (fun both => both.clear) (fun _ => rfl) alike.policy alike.maxItems alike.clocks

theorem close (alike : Alike t c v x y) : Alike t c v x.close y.close :=
  alike.of_map rfl rfl (fun both => both.close) (fun _ => rfl) alike.policy alike.maxItems alike.clocks

section Operations

variable (alike : Alike t c v x y) (left : x.Sound) (right : y.Sound)

include alike left right

theorem view_eq_none_iff (key : Key) : x.view key = none ↔ y.view key = none := by
  obtain ⟨w, home⟩ := alike.home key
  exact home.view_eq_none_iff (left.home key) (right.home key) key

/-- What the partitions of a key do to a write, and where that leaves the indexes. -/
theorem place_put {item : Item} (fits : item.encodedLength ≤ (x.home item.key).size)
    (few : ((x.home item.key).put x.clocks item).2.2.stamps.issued < UInt64.size) :
    Alike t c v (x.place (x.route item.key) ((x.home item.key).put x.clocks item).2.1
        ((x.home item.key).put x.clocks item).2.2)
      (y.place (y.route item.key) ((y.home item.key).put y.clocks item).2.1
        ((y.home item.key).put y.clocks item).2.2) := by
  obtain ⟨w, home⟩ := alike.home item.key
  have after := home.put (left.home item.key) (right.home item.key) alike.clocks item few
  rw [Partition.put_clocks fits, Partition.put_clocks (home.size ▸ fits)]
  exact alike.place (alike.route item.key) home after (alike.clocks.commit item)

/-- A write goes to the same place, and evicts the same entries for room, for the ceiling and for the item limit. -/
theorem put (small : x.Small) (item : Item) (few : (x.put item).2.clocks.stamps.issued < UInt64.size) :
    Alike t c v (x.put item).2 (y.put item).2 := by
  obtain ⟨w, home⟩ := alike.home item.key
  rcases Nat.lt_or_ge (x.home item.key).size item.encodedLength with large | fits
  · rw [put_of_large large, put_of_large (home.size ▸ large)]
    exact alike
  · rw [put_clocks] at few
    have placed := alike.place_put left right fits few
    have short := Nat.lt_of_le_of_lt fits (small item.key)
    have fewer : ((y.home item.key).put y.clocks item).2.2.stamps.issued < UInt64.size := by
      have later : (x.clocks.commit item).2.2.stamps.issued = (y.clocks.commit item).2.2.stamps.issued + t.toNat :=
        (alike.clocks.commit item).stamps
      rw [Partition.put_clocks fits] at few
      rw [Partition.put_clocks (home.size ▸ fits)]
      omega
    obtain ⟨-, p, stored, -⟩ := (left.home item.key).put fits short few
    obtain ⟨-, q, written, -⟩ := (right.home item.key).put (home.size ▸ fits) short fewer
    rw [stored, written] at placed
    obtain ⟨answer, x', y', limited, held, after⟩ := placed.enforceItemLimit.eq
    rw [put_eq, put_eq y, stored, written]
    dsimp only at limited held ⊢
    rw [limited, held]
    cases answer <;> exact after

theorem putIfAbsent (small : x.Small) (item : Item) (few : (x.putIfAbsent item).2.clocks.stamps.issued < UInt64.size) :
    Alike t c v (x.putIfAbsent item).2 (y.putIfAbsent item).2 := by
  have same := alike.view_eq_none_iff left right item.key
  by_cases absent : x.view item.key = none
  · rw [left.putIfAbsent_of_absent absent] at few ⊢
    rw [right.putIfAbsent_of_absent (same.1 absent)]
    exact alike.put left right small item few
  · obtain ⟨present, shown⟩ := Option.ne_none_iff_exists'.1 absent
    obtain ⟨other, held⟩ := Option.ne_none_iff_exists'.1 fun none => absent (same.2 none)
    rw [left.putIfAbsent_of_present shown, right.putIfAbsent_of_present held]
    exact alike

theorem replace {expected other item : Item} (same : x.view item.key = some expected ↔ y.view item.key = some other)
    (few : (x.replace expected item).2.clocks.stamps.issued < UInt64.size) :
    Alike t c v (x.replace expected item).2 (y.replace other item).2 := by
  obtain ⟨w, home⟩ := alike.home item.key
  by_cases held : x.view item.key = some expected
  · rcases Nat.lt_or_ge (x.home item.key).size item.encodedLength with large | fits
    · rw [left.replace_of_large held large, right.replace_of_large (same.1 held) (home.size ▸ large)]
      exact alike
    · rw [left.replace_of_same held] at few ⊢
      rw [right.replace_of_same (same.1 held)]
      exact alike.place_put left right fits few
  · rw [left.replace_of_other held, right.replace_of_other fun shown => held (same.2 shown)]
    exact alike

theorem get (key : Key) (few : (x.get key).2.clocks.stamps.issued < UInt64.size) :
    Alike t c v (x.get key).2 (y.get key).2 := by
  obtain ⟨w, home⟩ := alike.home key
  obtain ⟨after, later⟩ := home.get (left.home key) (right.home key) alike.clocks key x.policy.refreshesOnRead few
  rw [Index.get, Index.get, ← alike.policy]
  exact alike.place (alike.route key) home after later

theorem remove (key : Key) : Alike t c v (x.remove key).2 (y.remove key).2 := by
  obtain ⟨w, home⟩ := alike.home key
  exact alike.place (alike.route key) home (home.remove (left.home key) (right.home key) key) alike.clocks

theorem removeIf {expected other : Item} (keys : expected.key = other.key)
    (same : x.view expected.key = some expected ↔ y.view other.key = some other) :
    Alike t c v (x.removeIf expected).2 (y.removeIf other).2 := by
  obtain ⟨w, home⟩ := alike.home expected.key
  have there : y.home expected.key = y.home other.key := by rw [keys]
  have route : (x.route expected.key).val = (y.route other.key).val := by rw [alike.route, keys]
  rw [there] at home
  exact alike.place route home (home.removeIf (left.home expected.key) (right.home other.key) keys same) alike.clocks

end Operations

end Alike
end BlockCache.Index

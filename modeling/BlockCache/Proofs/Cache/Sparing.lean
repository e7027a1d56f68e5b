import BlockCache.Proofs.Cache.Coherence
import BlockCache.Proofs.Partition.Sparing

/-!
# What is done to other keys

What is done to one key of a store leaves every other key as it was, but for evictions, which are counted. A look at a
key may also remove its item once the time of the item is over. So the item of a key is there after any operation on
other keys, unless it was evicted or its time is over.
-/

namespace BlockCache

namespace Partition

/-- A write draws one CAS value or none. -/
theorem issued_le_put (p : Partition) (clocks : Clocks) (item : Item) :
    clocks.cas.issued ≤ (p.put clocks item).2.2.cas.issued := by
  rcases Nat.lt_or_ge p.size item.encodedLength with large | fits
  · rw [put_of_large large]
  · rw [put_clocks fits]
    exact Nat.le_succ _

/-- A write that was made has drawn a CAS value. -/
theorem issued_of_put {p : Partition} {clocks : Clocks} {item : Item} {old : Option Item}
    (stored : (p.put clocks item).1 = .ok old) : (p.put clocks item).2.2.cas.issued = clocks.cas.issued + 1 := by
  rcases Nat.lt_or_ge p.size item.encodedLength with large | fits
  · rw [put_of_large large] at stored
    cases stored
  · rw [put_clocks fits]
    rfl

theorem issued_le_putIfAbsent (p : Partition) (clocks : Clocks) (item : Item) :
    clocks.cas.issued ≤ (p.putIfAbsent clocks item).2.2.cas.issued := by
  have drawn := p.issued_le_put clocks item
  rw [putIfAbsent]
  split
  · exact Nat.le_refl _
  · exact Nat.le_refl _
  · split
    all_goals
      rename_i stored
      rwa [stored] at drawn

theorem issued_le_replaceIf (p : Partition) (clocks : Clocks) (expected item : Item) :
    clocks.cas.issued ≤ (p.replaceIf clocks expected item).2.2.cas.issued := by
  have drawn := p.issued_le_put clocks item
  rw [replaceIf]
  split
  · exact Nat.le_refl _
  · split
    · split
      all_goals
        rename_i stored
        rwa [stored] at drawn
    · exact Nat.le_refl _

theorem issued_of_replaceIf {p : Partition} {clocks : Clocks} {expected item : Item}
    (swapped : (p.replaceIf clocks expected item).1 = .ok true) :
    (p.replaceIf clocks expected item).2.2.cas.issued = clocks.cas.issued + 1 := by
  rw [replaceIf] at swapped ⊢
  split
  · rename_i failed
    rw [failed] at swapped
    cases swapped
  · rename_i current found
    rw [found] at swapped
    dsimp only at swapped
    split
    · rename_i same
      rw [if_pos same] at swapped
      rcases stored : p.put clocks item with ⟨e | old, q, after⟩
      · rw [stored] at swapped
        cases swapped
      · have drawn := issued_of_put (congrArg Prod.fst stored)
        rwa [stored] at drawn
    · rename_i other
      rw [if_neg other] at swapped
      cases swapped

theorem cas_get (p : Partition) (clocks : Clocks) (key : Key) (touch : Bool) :
    (p.get clocks key touch).2.2.cas = clocks.cas := by
  rw [get]
  split
  · split <;> rfl
  · rfl

end Partition

namespace Index

/-- What `x` holds under a key `y` holds, too, or the key was evicted. No CAS value is taken back. -/
structure Spares (x : Index) (key : Key) (y : Index) : Prop where
  view : y.view key = x.view key ∨ y.view key = none ∧ x.evictions < y.evictions
  evictions : x.evictions ≤ y.evictions
  issued : x.clocks.cas.issued ≤ y.clocks.cas.issued

section Spares

variable {x y z : Index} {key : Key}

theorem Spares.refl (x : Index) (key : Key) : x.Spares key x := ⟨.inl rfl, Nat.le_refl _, Nat.le_refl _⟩

theorem Spares.trans (left : x.Spares key y) (right : y.Spares key z) : x.Spares key z where
  view := Partition.kept_or_evicted_trans left.evictions right.evictions left.view right.view
  evictions := Nat.le_trans left.evictions right.evictions
  issued := Nat.le_trans left.issued right.issued

/-- What is done to one partition. -/
theorem spares_place {i : Fin x.partitions.size} {q : Partition} {clocks : Clocks}
    (spares : (getElem x.partitions i i.isLt).Spares key q) (later : x.clocks.cas.issued ≤ clocks.cas.issued) :
    x.Spares key (x.place i q clocks) := by
  have sum := x.total_place i q clocks (·.evictions)
  have counted := spares.evictions
  have evictions : x.evictions ≤ (x.place i q clocks).evictions := by
    rw [Index.evictions, Index.evictions]
    omega
  refine ⟨?_, evictions, later⟩
  rw [view_place]
  split
  · rename_i here
    subst here
    rcases spares.view with same | ⟨gone, more⟩
    · exact .inl same
    · refine .inr ⟨gone, ?_⟩
      rw [Index.evictions, Index.evictions]
      omega
  · exact .inl rfl

end Spares

namespace Coherent

variable {allowed : Key → Prop} {x : Index}

theorem spares_evictOldest (coherent : x.Coherent allowed) (key : Key) : x.Spares key x.evictOldest.2 := by
  rw [Index.evictOldest]
  split
  · exact .refl x key
  · rename_i i _
    have inside : x.partitions[i.val]? = some x.partitions[i] := by simp
    exact spares_place ((coherent _ _ inside).spares_evictOne none key) (Nat.le_refl _)

theorem spares_enforceItemLimit {x : Index} (coherent : x.Coherent allowed) (key : Key) :
    x.Spares key x.enforceItemLimit.2 := by
  rw [Index.enforceItemLimit]
  split
  · have evicted := coherent.evictOldest
    have spares := coherent.spares_evictOldest key
    split
    · rename_i same
      rwa [same] at spares
    · rename_i same
      rwa [same] at spares
    · rename_i same
      rw [same] at evicted spares
      exact spares.trans (evicted.kept.spares_enforceItemLimit key)
  · exact .refl x key
termination_by x.linkCount
decreasing_by exact linkCount_evictOldest_lt (by assumption)

/-- The item limit is enforced after a write. -/
theorem spares_limited (coherent : x.Coherent allowed) (key : Key) (value : α) :
    x.Spares key (match x.enforceItemLimit with
      | (.error e, x) => ((.error e, x) : Except StoreError α × Index)
      | (.ok (), x) => (.ok value, x)).2 := by
  have spares := coherent.spares_enforceItemLimit key
  split
  all_goals
    rename_i same
    rwa [same] at spares

section Writing

variable (coherent : x.Coherent allowed) {item : Item} (may : allowed item.key) {other : Key} (ne : other ≠ item.key)

include coherent may ne

theorem spares_put : x.Spares other (x.put item).2 := by
  have kept (clocks : Clocks) := coherent.steps (x.route item.key) ((coherent.home item.key).put x.clocks may).1 clocks
  have spares := spares_place (x := x) (i := x.route item.key) ((coherent.home item.key).spares_put x.clocks may ne)
    ((x.home item.key).issued_le_put x.clocks item)
  rw [put_eq]
  rcases stored : (x.home item.key).put x.clocks item with ⟨e | old, p, clocks⟩
  · rwa [stored] at spares
  · rw [stored] at spares kept
    exact spares.trans (spares_limited (kept clocks).kept other old)

theorem spares_putIfAbsent : x.Spares other (x.putIfAbsent item).2 := by
  have kept (clocks : Clocks) :=
    coherent.steps (x.route item.key) ((coherent.home item.key).putIfAbsent x.clocks may) clocks
  have spares := spares_place (x := x) (i := x.route item.key)
    ((coherent.home item.key).spares_putIfAbsent x.clocks may ne) ((x.home item.key).issued_le_putIfAbsent x.clocks item)
  rw [putIfAbsent_eq]
  rcases stored : (x.home item.key).putIfAbsent x.clocks item with ⟨e | _ | present, p, clocks⟩
  · rwa [stored] at spares
  · rw [stored] at spares kept
    exact spares.trans (spares_limited (kept clocks).kept other none)
  · rwa [stored] at spares

theorem spares_replace (expected : Item) : x.Spares other (x.replace expected item).2 := by
  rw [Index.replace]
  split
  · exact spares_place (i := x.route item.key) ((coherent.home item.key).spares_replaceIf x.clocks may ne expected)
      ((x.home item.key).issued_le_replaceIf x.clocks expected item)
  · exact .refl x other

end Writing

/-- An item that was stored has drawn a CAS value, and its key holds it unless it is evicted at once. -/
theorem view_of_put (coherent : x.Coherent allowed) {item : Item} (may : allowed item.key) {old : Option Item}
    (stored : (x.put item).1 = .ok old) :
    ((x.put item).2.view item.key = some (x.clocks.commit item).1 ∨ (x.put item).2.view item.key = none) ∧
      x.clocks.cas.issued < (x.put item).2.clocks.cas.issued := by
  obtain ⟨steps, committed⟩ := (coherent.home item.key).put x.clocks may
  have kept (clocks : Clocks) := coherent.steps (x.route item.key) steps clocks
  rw [put_eq] at stored ⊢
  rcases result : (x.home item.key).put x.clocks item with ⟨e | before, p, clocks⟩
  · rw [result] at stored
    cases stored
  · rw [result] at kept committed
    have drawn := Partition.issued_of_put (congrArg Prod.fst result)
    rw [result] at drawn
    have limits := spares_limited (kept clocks).kept item.key before
    have placed : (x.place (x.route item.key) p clocks).view item.key = some (x.clocks.commit item).1 :=
      ((x.view_place (x.route item.key) p clocks item.key).trans (if_pos rfl)).trans (committed before rfl)
    refine ⟨?_, Nat.lt_of_lt_of_le (Nat.lt_of_lt_of_eq (Nat.lt_succ_self _) drawn.symm) limits.issued⟩
    exact limits.view.imp (fun same => same.trans placed) And.left

theorem spares_get (coherent : x.Coherent allowed) (asked key : Key) : x.Spares key (x.get asked).2 := by
  obtain ⟨p, clocks, read, -, same⟩ := (coherent.home asked).get x.clocks asked x.policy.refreshesOnRead
  have counted := (x.home asked).evictions_get x.clocks asked x.policy.refreshesOnRead
  have drawn := (x.home asked).cas_get x.clocks asked x.policy.refreshesOnRead
  rw [read] at counted drawn
  rw [Index.get, show x.partitions[x.route asked].get x.clocks asked x.policy.refreshesOnRead = _ from read]
  exact spares_place (i := x.route asked) ⟨.inl (same key), Nat.le_of_eq counted.symm⟩
    (Nat.le_of_eq (congrArg Counter.issued drawn.symm))

/-- What a key holds is removed if it is what was expected, and nothing else is. -/
theorem removeIf_of_view (coherent : x.Coherent allowed) {expected : Item} (shown : x.view expected.key = some expected) :
    ∃ y, x.removeIf expected = (.ok true, y) ∧ y.Coherent allowed ∧ y.evictions = x.evictions ∧
      y.clocks = x.clocks ∧ ∀ key, y.view key = if key = expected.key then none else x.view key := by
  obtain ⟨p, removed, kept, counted, taken⟩ := (coherent.home expected.key).removeIf_of_view shown
  have sum := x.total_place (x.route expected.key) p x.clocks (·.evictions)
  refine ⟨x.place (x.route expected.key) p x.clocks, ?_, coherent.place _ kept x.clocks, ?_, rfl, fun key => ?_⟩
  · rw [Index.removeIf, show x.partitions[x.route expected.key].removeIf expected = _ from removed]
    rfl
  · rw [Index.evictions, Index.evictions]
    change _ + (x.home expected.key).evictions = _ at sum
    omega
  · rw [view_place]
    split
    · rename_i here
      rw [taken, view, home_congr here]
    · rename_i elsewhere
      rw [if_neg fun same => elsewhere (congrArg x.route same)]

end Coherent

/-- A swap that was made has drawn a CAS value. -/
theorem issued_of_replace {x : Index} {expected item : Item} (swapped : (x.replace expected item).1 = .ok true) :
    (x.replace expected item).2.clocks.cas.issued = x.clocks.cas.issued + 1 := by
  rw [Index.replace] at swapped ⊢
  split
  · rename_i same
    rw [if_pos same] at swapped
    exact Partition.issued_of_replaceIf swapped
  · rename_i other
    rw [if_neg other] at swapped
    cases swapped

theorem issued_le_replace (x : Index) (expected item : Item) :
    x.clocks.cas.issued ≤ (x.replace expected item).2.clocks.cas.issued := by
  rw [Index.replace]
  split
  · exact (x.home item.key).issued_le_replaceIf x.clocks expected item
  · exact Nat.le_refl _

end Index

namespace Store

/-- What `s` holds under a key `t` holds, too, or the key was evicted, or the time of its item was over. No CAS value is
taken back. -/
structure Spares (s : Store) (now : Int64) (key : Key) (t : Store) : Prop where
  view : t.view key = s.view key ∨ t.view key = none ∧
    (s.evictions < t.evictions ∨ ∃ item, s.view key = some item ∧ item.isPurgeableAt now = true)
  evictions : s.evictions ≤ t.evictions
  issued : s.issued ≤ t.issued

section Spares

variable {s t u : Store} {now : Int64} {key : Key}

theorem Spares.refl (s : Store) (now : Int64) (key : Key) : s.Spares now key s :=
  ⟨.inl rfl, Nat.le_refl _, Nat.le_refl _⟩

theorem Spares.trans (left : s.Spares now key t) (right : t.Spares now key u) : s.Spares now key u where
  view := by
    have first := left.evictions
    have second := right.evictions
    rcases left.view with before | ⟨gone, why⟩
    · rw [← before]
      rcases right.view with same | ⟨gone, more | past⟩
      · exact .inl same
      · exact .inr ⟨gone, .inl (by omega)⟩
      · exact .inr ⟨gone, .inr past⟩
    · refine .inr ⟨?_, why.imp_left fun more => by omega⟩
      exact right.view.elim (fun same => same.trans gone) And.left
  evictions := Nat.le_trans left.evictions right.evictions
  issued := Nat.le_trans left.issued right.issued

theorem Spares.of_index {x y : Index} (spares : x.Spares key y) (now : Int64) : (blocks x).Spares now key (blocks y) :=
  ⟨spares.view.imp_right fun ⟨gone, more⟩ => ⟨gone, .inl more⟩, spares.evictions, spares.issued⟩

/-- An attempt that stores draws a CAS value. -/
theorem Attempt.issued {item : Item} {answer : α} {r : Except StoreError α × Store} (attempt : s.Attempt item answer r) :
    s.issued ≤ r.2.issued ∧ ∀ value, r.1 = .ok value → s.issued < r.2.issued := by
  cases attempt with
  | refused => exact ⟨Nat.le_refl _, nofun⟩
  | stored _ _ stores =>
    have drawn := Nat.lt_of_lt_of_eq (Nat.lt_succ_self _) stores.issued.symm
    exact ⟨Nat.le_of_lt drawn, fun _ _ => drawn⟩

theorem Spares.of_attempt {item : Item} {answer : α} {r : Except StoreError α × Store} (attempt : s.Attempt item answer r)
    (now : Int64) (ne : key ≠ item.key) : s.Spares now key r.2 := by
  cases attempt with
  | refused => exact .refl s now key
  | stored _ _ stores =>
    have drawn := Nat.le_of_lt (Nat.lt_of_lt_of_eq (Nat.lt_succ_self _) stores.issued.symm)
    exact ⟨(stores.elsewhere key ne).imp_right fun ⟨gone, more⟩ => ⟨gone, .inl more⟩, stores.evictions, drawn⟩

end Spares

namespace Coherent

variable {allowed : Key → Prop} {s : Store}

/-- A map draws no stamps that could run out. -/
theorem drawn_memory (m : MemoryStore) : (memory m).drawn < UInt64.size :=
  show 0 < UInt64.size by decide

theorem spares_get (coherent : s.Coherent allowed) (now : Int64) (asked key : Key) :
    s.Spares now key (s.get asked).2 := by
  cases s with
  | blocks x => exact .of_index (Index.Coherent.spares_get coherent asked key) now
  | memory m =>
    obtain ⟨t, read, -, same, -, stays⟩ := Store.Sound.get (s := memory m) coherent asked (drawn_memory _)
    rw [read]
    exact ⟨.inl (same key), Nat.le_of_eq stays.evictions.symm, Nat.le_of_eq stays.issued.symm⟩

section Writing

variable (coherent : s.Coherent allowed) (now : Int64) {item : Item} (may : allowed item.key) {other : Key}
  (ne : other ≠ item.key)

include coherent may ne

theorem spares_put : s.Spares now other (s.put item).2 := by
  cases s with
  | blocks x => exact .of_index (Index.Coherent.spares_put coherent may ne) now
  | memory m => exact .of_attempt (Store.Sound.put (s := memory m) coherent item trivial (drawn_memory _)) now ne

theorem spares_putIfAbsent : s.Spares now other (s.putIfAbsent item).2 := by
  cases s with
  | blocks x => exact .of_index (Index.Coherent.spares_putIfAbsent coherent may ne) now
  | memory m =>
    cases shown : (memory m).view item.key with
    | none =>
      exact .of_attempt (Store.Sound.putIfAbsent_of_absent (s := memory m) coherent shown trivial (drawn_memory _)) now ne
    | some present =>
      rw [Store.Sound.putIfAbsent_of_present (s := memory m) coherent shown]
      exact .refl _ now other

theorem spares_replace (expected : Item) : s.Spares now other (s.replace expected item).2 := by
  cases s with
  | blocks x => exact .of_index (Index.Coherent.spares_replace coherent may ne expected) now
  | memory m =>
    by_cases same : expected.key = item.key ∧ m.lookup item.key = some expected
    · exact .of_attempt (Store.Sound.replace (s := memory m) coherent same.2 trivial (drawn_memory _)) now ne
    · rw [Store.replace, MemoryStore.replace, if_neg same]
      exact .refl _ now other

end Writing

/-- What a key holds is removed if it is what was expected, and nothing else is. -/
theorem removeIf_of_view (coherent : s.Coherent allowed) {expected : Item} (shown : s.view expected.key = some expected) :
    ∃ t, s.removeIf expected = (.ok true, t) ∧ t.Coherent allowed ∧ t.evictions = s.evictions ∧ t.issued = s.issued ∧
      ∀ key, t.view key = if key = expected.key then none else s.view key := by
  cases s with
  | blocks x =>
    obtain ⟨y, removed, kept, counted, clocks, taken⟩ := Index.Coherent.removeIf_of_view coherent shown
    exact ⟨blocks y, by rw [Store.removeIf, removed], kept, counted, congrArg (·.cas.issued) clocks, taken⟩
  | memory m =>
    obtain ⟨t, removed, kept, taken, stays⟩ := Store.Sound.removeIf (s := memory m) coherent shown
    have same : t = memory (m.removeIf expected).2 := (congrArg Prod.snd removed).symm
    exact ⟨t, removed, by rw [same] at kept ⊢; exact kept, stays.evictions, stays.issued, taken⟩

/-- An item that was stored has drawn a CAS value, and its key holds it unless it is evicted at once. -/
theorem view_of_put (coherent : s.Coherent allowed) {item : Item} (may : allowed item.key) {old : Option Item}
    (stored : (s.put item).1 = .ok old) :
    ((s.put item).2.view item.key = some (s.committed item) ∨ (s.put item).2.view item.key = none) ∧
      s.issued < (s.put item).2.issued := by
  cases s with
  | blocks x => exact Index.Coherent.view_of_put coherent may stored
  | memory m =>
    have attempt := Store.Sound.put (s := memory m) coherent item trivial (drawn_memory _)
    have drawn := attempt.issued.2 old stored
    generalize (memory m).put item = r at attempt stored drawn
    cases attempt with
    | refused => cases stored
    | stored _ _ stores => exact ⟨stores.here.imp_right And.right, drawn⟩

/-- A swap of what a key holds is made, and has drawn a CAS value, or it is refused. -/
theorem replace_of_view (coherent : s.Coherent allowed) {present item : Item} (may : allowed item.key)
    (shown : s.view item.key = some present) :
    (s.replace present item).2.Coherent allowed ∧ s.issued ≤ (s.replace present item).2.issued ∧
      ((∃ e, (s.replace present item).1 = .error e) ∨
        (s.replace present item).1 = .ok true ∧ (s.replace present item).2.view item.key = some (s.committed item) ∧
          s.issued < (s.replace present item).2.issued) := by
  obtain ⟨steps, swaps, swapped⟩ := coherent.replace present may
  obtain ⟨later, drawn⟩ : s.issued ≤ (s.replace present item).2.issued ∧
      ((s.replace present item).1 = .ok true → s.issued < (s.replace present item).2.issued) := by
    cases s with
    | blocks x =>
      refine ⟨Index.issued_le_replace x present item, fun made => ?_⟩
      exact Nat.lt_of_lt_of_eq (Nat.lt_succ_self _) (Index.issued_of_replace made).symm
    | memory m =>
      obtain ⟨later, drawn⟩ := (Store.Sound.replace (s := memory m) coherent shown trivial (drawn_memory _)).issued
      exact ⟨later, drawn true⟩
  refine ⟨steps.kept, later, ?_⟩
  rcases answer : (s.replace present item).1 with e | _ | _
  · exact .inl ⟨e, rfl⟩
  · exact absurd answer (swaps (coherent.key_of_view shown) shown)
  · exact .inr ⟨rfl, swapped answer, drawn answer⟩

end Coherent
end Store
end BlockCache

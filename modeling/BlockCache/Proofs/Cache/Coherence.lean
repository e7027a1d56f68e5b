import BlockCache.Proofs.Cache.Runs
import BlockCache.Proofs.Partition.Coherence

/-!
# What holds of every cache

The partitions of an index stay coherent whatever is done to it, and items of a map lie under their own
keys. So in every state that operations lead to, errors are of few kinds, a read answers what its key
holds and leaves all of it in place, and a swap of what a key holds is either refused or made.
-/

namespace BlockCache

open StoreError (Arises)

/-- The errors that a cache can come to: those of its store, data that is no number, and a swap that was never made. -/
inductive StoreError.Reported (allowed : Key → Prop) : StoreError → Prop where
  | store {e : StoreError} : Arises allowed e → Reported allowed e
  | notANumber : Reported allowed .notANumber
  | contended : Reported allowed .contended

open StoreError (Reported)

variable {allowed : Key → Prop}

namespace Index

/-- Every partition is coherent. -/
def Coherent (allowed : Key → Prop) (x : Index) : Prop :=
  ∀ (i : Nat) (p : Partition), x.partitions[i]? = some p → p.Coherent allowed

namespace Coherent

variable {x : Index}

theorem home (coherent : x.Coherent allowed) (key : Key) : (x.home key).Coherent allowed :=
  coherent _ _ (x.getElem?_home key)

theorem place (coherent : x.Coherent allowed) (i : Fin x.partitions.size) {p : Partition} (kept : p.Coherent allowed)
    (clocks : Clocks) : (x.place i p clocks).Coherent allowed := by
  intro j q held
  rw [getElem?_place] at held
  split at held
  · obtain rfl := Option.some.inj held
    exact kept
  · exact coherent j q held

/-- What a step comes to in one partition, it comes to in the index. -/
theorem steps (coherent : x.Coherent allowed) (i : Fin x.partitions.size) {answer : Except StoreError α} {p : Partition}
    (steps : Steps (Arises allowed) (Partition.Coherent allowed) (answer, p)) (clocks : Clocks) :
    Steps (Arises allowed) (Coherent allowed) (answer, x.place i p clocks) :=
  ⟨steps.arises, coherent.place i steps.kept clocks⟩

theorem evictOldest (coherent : x.Coherent allowed) : Steps (Arises allowed) (Coherent allowed) x.evictOldest := by
  rw [Index.evictOldest]
  split
  · exact .ok _ coherent
  · rename_i i _
    have inside : x.partitions[i.val]? = some x.partitions[i] := by simp
    exact coherent.steps i ((coherent _ _ inside).evictOne none).2 x.clocks

theorem enforceItemLimit {x : Index} (coherent : x.Coherent allowed) :
    Steps (Arises allowed) (Coherent allowed) x.enforceItemLimit := by
  rw [Index.enforceItemLimit]
  split
  · have evicted := coherent.evictOldest
    split
    · rename_i e y same
      rw [same] at evicted
      exact evicted.raise evicted.kept
    · rename_i y same
      rw [same] at evicted
      exact .ok _ evicted.kept
    · rename_i key y same
      rw [same] at evicted
      exact enforceItemLimit evicted.kept
  · exact .ok _ coherent
termination_by x.linkCount
decreasing_by exact linkCount_evictOldest_lt (by assumption)

/-- The item limit is enforced after a write, and the answer stays. -/
theorem limited (coherent : x.Coherent allowed) (value : α) :
    Steps (Arises allowed) (Coherent allowed) (match x.enforceItemLimit with
      | (.error e, x) => (.error e, x)
      | (.ok (), x) => (.ok value, x)) := by
  have limit := coherent.enforceItemLimit
  split
  · rename_i same
    rw [same] at limit
    exact limit.raise limit.kept
  · rename_i same
    rw [same] at limit
    exact .ok _ limit.kept

theorem put (coherent : x.Coherent allowed) {item : Item} (may : allowed item.key) :
    Steps (Arises allowed) (Coherent allowed) (x.put item) := by
  have first := coherent.steps (x.route item.key) ((coherent.home item.key).put x.clocks may).1
  rw [Index.put]
  rcases result : (x.home item.key).put x.clocks item with ⟨e | old, p, clocks⟩
  · rw [result] at first
    have stopped := first clocks
    rw [show x.partitions[x.route item.key].put x.clocks item = (.error e, p, clocks) from result]
    exact stopped.raise stopped.kept
  · rw [result] at first
    rw [show x.partitions[x.route item.key].put x.clocks item = (.ok old, p, clocks) from result]
    exact limited (first clocks).kept old

theorem putIfAbsent (coherent : x.Coherent allowed) {item : Item} (may : allowed item.key) :
    Steps (Arises allowed) (Coherent allowed) (x.putIfAbsent item) := by
  have first := coherent.steps (x.route item.key) ((coherent.home item.key).putIfAbsent x.clocks may)
  rw [Index.putIfAbsent]
  rcases result : (x.home item.key).putIfAbsent x.clocks item with ⟨e | _ | present, p, clocks⟩
  · rw [result] at first
    have stopped := first clocks
    rw [show x.partitions[x.route item.key].putIfAbsent x.clocks item = (.error e, p, clocks) from result]
    exact stopped.raise stopped.kept
  · rw [result] at first
    rw [show x.partitions[x.route item.key].putIfAbsent x.clocks item = (.ok none, p, clocks) from result]
    exact limited (first clocks).kept none
  · rw [result] at first
    rw [show x.partitions[x.route item.key].putIfAbsent x.clocks item = (.ok (some present), p, clocks) from result]
    exact .ok _ (first clocks).kept

/-- A swap of what a key holds is refused, or the key then holds the other item. -/
theorem replace (coherent : x.Coherent allowed) (expected : Item) {item : Item} (may : allowed item.key) :
    Steps (Arises allowed) (Coherent allowed) (x.replace expected item) ∧
      (expected.key = item.key → x.view item.key = some expected → (x.replace expected item).1 ≠ .ok false) ∧
      ((x.replace expected item).1 = .ok true →
        (x.replace expected item).2.view item.key = some (x.clocks.commit item).1) := by
  obtain ⟨steps, swaps, swapped⟩ := (coherent.home item.key).replaceIf x.clocks expected may
  rw [Index.replace]
  split
  · refine ⟨coherent.steps (x.route item.key) steps _, fun _ => swaps, fun stored => ?_⟩
    exact ((x.view_place (x.route item.key) _ _ item.key).trans (if_pos rfl)).trans (swapped stored)
  · rename_i other
    exact ⟨.ok _ coherent, fun same => absurd same other, by simp⟩

theorem get (coherent : x.Coherent allowed) (key : Key) :
    ∃ y, x.get key = (.ok (x.view key), y) ∧ y.Coherent allowed ∧ ∀ other, y.view other = x.view other := by
  obtain ⟨p, clocks, read, kept, same⟩ := (coherent.home key).get x.clocks key x.policy.refreshesOnRead
  refine ⟨x.place (x.route key) p clocks, ?_, coherent.place _ kept clocks, fun other => ?_⟩
  · rw [Index.get, show x.partitions[x.route key].get x.clocks key x.policy.refreshesOnRead = _ from read]
    rfl
  · rw [view_place]
    split
    · rename_i here
      rw [same, view, home_congr here]
    · rfl

theorem removeIf (coherent : x.Coherent allowed) (expected : Item) :
    Steps (Arises allowed) (Coherent allowed) (x.removeIf expected) :=
  coherent.steps (x.route expected.key) ((coherent.home expected.key).removeIf expected) x.clocks

/-- What is done to all partitions alike. -/
theorem map {y : Index} {f : Partition → Partition} (partitions : y.partitions = x.partitions.map f)
    (kept : ∀ (i : Nat) (p : Partition), x.partitions[i]? = some p → (f p).Coherent allowed) : y.Coherent allowed := by
  intro i q held
  rw [partitions, Array.getElem?_map] at held
  obtain ⟨p, before, rfl⟩ := Option.map_eq_some_iff.1 held
  exact kept i p before

theorem clear (coherent : x.Coherent allowed) : x.clear.Coherent allowed :=
  map rfl fun i p held => (coherent i p held).clear

theorem close (x : Index) : x.close.Coherent allowed := map rfl fun _ p _ => .close p

theorem new (s : StorageSettings) : (Index.new s).Coherent allowed := by
  intro i p held
  simp only [Index.new, Array.getElem?_replicate] at held
  split at held
  · obtain rfl := Option.some.inj held
    exact .new ..
  · cases held

end Coherent
end Index

namespace Store

/-- Partitions are coherent, and items of a map lie under their own keys. -/
def Coherent (allowed : Key → Prop) : Store → Prop
  | blocks x => x.Coherent allowed
  | memory m => m.Sound

namespace Coherent

variable {s : Store}

/-- The steps of a map fail for want of space only. -/
theorem steps_put {m : MemoryStore} (sound : m.Sound) (item : Item) :
    Steps (Arises allowed) MemoryStore.Sound (m.put item) := by
  cases refused : m.refusal? item with
  | some e =>
    rw [MemoryStore.put_of_refusal refused]
    obtain ⟨requested, available, rfl⟩ := outOfSpace_of_refusal? (s := .memory m) refused
    exact .error (.space _ _) sound
  | none =>
    obtain ⟨n, stored, after, -⟩ := sound.put refused
    rw [stored]
    exact .ok _ after

theorem put (coherent : s.Coherent allowed) {item : Item} (may : allowed item.key) :
    Steps (Arises allowed) (Coherent allowed) (s.put item) := by
  cases s with
  | blocks x =>
    have steps := Index.Coherent.put coherent may
    exact ⟨steps.arises, steps.kept⟩
  | memory m =>
    have steps : Steps (Arises allowed) MemoryStore.Sound (m.put item) := steps_put coherent item
    exact ⟨steps.arises, steps.kept⟩

theorem putIfAbsent (coherent : s.Coherent allowed) {item : Item} (may : allowed item.key) :
    Steps (Arises allowed) (Coherent allowed) (s.putIfAbsent item) := by
  cases s with
  | blocks x =>
    have steps := Index.Coherent.putIfAbsent coherent may
    exact ⟨steps.arises, steps.kept⟩
  | memory m =>
    have steps : Steps (Arises allowed) MemoryStore.Sound (m.putIfAbsent item) := by
      rw [MemoryStore.putIfAbsent]
      split
      · exact .ok _ coherent
      · exact steps_put coherent item
    exact ⟨steps.arises, steps.kept⟩

/-- A swap of what a key holds is refused, or the key then holds the other item. -/
theorem replace (coherent : s.Coherent allowed) (expected : Item) {item : Item} (may : allowed item.key) :
    Steps (Arises allowed) (Coherent allowed) (s.replace expected item) ∧
      (expected.key = item.key → s.view item.key = some expected → (s.replace expected item).1 ≠ .ok false) ∧
      ((s.replace expected item).1 = .ok true → (s.replace expected item).2.view item.key = some (s.committed item)) := by
  cases s with
  | blocks x =>
    obtain ⟨steps, swaps, swapped⟩ := Index.Coherent.replace coherent expected may
    exact ⟨⟨steps.arises, steps.kept⟩, swaps, swapped⟩
  | memory m =>
    suffices swap : Steps (Arises allowed) MemoryStore.Sound (m.replace expected item) ∧
        (expected.key = item.key → m.lookup item.key = some expected → (m.replace expected item).1 ≠ .ok false) ∧
        ((m.replace expected item).1 = .ok true →
          (m.replace expected item).2.lookup item.key = some { item with cas := m.cas.next.1 }) from
      ⟨⟨swap.1.arises, swap.1.kept⟩, swap.2⟩
    by_cases same : expected.key = item.key ∧ m.lookup item.key = some expected
    · rw [MemoryStore.replace_of_same same]
      have steps : Steps (Arises allowed) MemoryStore.Sound (m.put item) := steps_put coherent item
      cases refused : m.refusal? item with
      | some e =>
        rw [MemoryStore.put_of_refusal refused] at steps ⊢
        exact ⟨steps.raise steps.kept, by simp [Except.map], by simp [Except.map]⟩
      | none =>
        obtain ⟨n, stored, after, puts⟩ := MemoryStore.Sound.put coherent refused
        rw [stored]
        exact ⟨.ok _ after, by simp [Except.map], fun _ => puts.here⟩
    · rw [MemoryStore.replace, if_neg same]
      exact ⟨.ok _ coherent, fun keyed held => absurd ⟨keyed, held⟩ same, by simp⟩

theorem get (coherent : s.Coherent allowed) (key : Key) :
    ∃ t, s.get key = (.ok (s.view key), t) ∧ t.Coherent allowed ∧ ∀ other, t.view other = s.view other := by
  cases s with
  | blocks x =>
    obtain ⟨y, read, kept, same⟩ := Index.Coherent.get coherent key
    exact ⟨blocks y, by rw [Store.get, read]; rfl, kept, same⟩
  | memory m =>
    obtain ⟨n, read, kept, same, -⟩ := MemoryStore.Sound.get coherent key
    exact ⟨memory n, by rw [Store.get, read]; rfl, kept, same⟩

theorem removeIf (coherent : s.Coherent allowed) (expected : Item) :
    Steps (Arises allowed) (Coherent allowed) (s.removeIf expected) := by
  cases s with
  | blocks x =>
    have steps := Index.Coherent.removeIf coherent expected
    exact ⟨steps.arises, steps.kept⟩
  | memory m =>
    refine .ok _ (show (m.removeIf expected).2.Sound from ?_)
    rw [MemoryStore.removeIf]
    split
    · exact (m.sheds_remove expected.key).sound coherent
    · exact coherent

theorem key_of_view (coherent : s.Coherent allowed) {key : Key} {item : Item} (shown : s.view key = some item) :
    item.key = key := by
  cases s with
  | blocks x => exact Partition.Coherent.key_of_view shown
  | memory m => exact MemoryStore.Sound.keyed coherent shown

theorem clear (coherent : s.Coherent allowed) : s.clear.Coherent allowed := by
  cases s with
  | blocks x => exact Index.Coherent.clear coherent
  | memory m => exact (Sound.clear (s := .memory m) coherent).1

theorem close (s : Store) : s.close.Coherent allowed := by
  cases s with
  | blocks x => exact Index.Coherent.close x
  | memory m => exact (Sound.close (.memory m)).1

theorem new (settings : StorageSettings) : (Store.new settings).Coherent allowed := by
  rw [Store.new]
  split
  · exact Index.Coherent.new settings
  · exact MemoryStore.Sound.new ..

end Coherent
end Store

namespace Cache

/-- The store is coherent. -/
def Coherent (allowed : Key → Prop) (c : Cache) : Prop := c.store.Coherent allowed

/-- The keys that an operation may write under are allowed. -/
def Operation.Allowed (allowed : Key → Prop) : Operation → Prop
  | set item | add item | replace item | append item | prepend item | cas item _ => allowed item.key
  | delete key _ | addNumber key _ => allowed key
  | get _ | flushAll | close => True

theorem Operation.Allowed.mono {more : Key → Prop} {op : Operation} (may : op.Allowed allowed)
    (also : ∀ key, allowed key → more key) : op.Allowed more := by
  cases op <;> first | exact also _ may | trivial

theorem Operation.allowed_any (op : Operation) : op.Allowed fun _ => True := by
  cases op <;> trivial

namespace Coherent

variable {c : Cache}

theorem map {step : Step α} (steps : Steps (Reported allowed) (Coherent allowed) step) (f : α → β) :
    Steps (Reported allowed) (Coherent allowed) (step.map (.map f) id) := by
  rcases step with ⟨e | value, d⟩
  · exact steps.raise steps.kept
  · exact .ok _ steps.kept

theorem countStored {step : Step StoreAnswer} (steps : Steps (Reported allowed) (Coherent allowed) step) :
    Steps (Reported allowed) (Coherent allowed) (countStored step) := by
  rcases step with ⟨e | answer, d⟩
  · exact steps
  · cases answer <;> exact .ok _ steps.kept

/-- A look at a key, and what it finds. -/
theorem live (coherent : c.Coherent allowed) (now : Int64) (key : Key) :
    Steps (Reported allowed) (Coherent allowed) (c.live now key) ∧
      ∀ item d, c.live now key = (.ok (some item), d) → item.key = key := by
  obtain ⟨t, read, kept, -⟩ := Store.Coherent.get coherent key
  rw [Cache.live, read]
  cases shown : c.store.view key with
  | none => exact ⟨.ok _ kept, nofun⟩
  | some item =>
    have keyed := Store.Coherent.key_of_view coherent shown
    dsimp only
    split
    · have removes := (kept.removeIf item).mono fun _ => Reported.store
      rcases removed : t.removeIf item with ⟨e | _, u⟩
      · rw [removed] at removes
        exact ⟨removes.raise removes.kept, nofun⟩
      · rw [removed] at removes
        exact ⟨.ok _ removes.kept, nofun⟩
    · split
      · exact ⟨.ok _ kept, nofun⟩
      · refine ⟨.ok _ kept, ?_⟩
        rintro found d ⟨⟩
        exact keyed

theorem swap (coherent : c.Coherent allowed) (present : Item) {item : Item} (may : allowed item.key) (answer : α) :
    Steps (Reported allowed) (Coherent allowed) (c.swap present item answer) := by
  have replaces := (Store.Coherent.replace coherent present may).1.mono fun _ => Reported.store
  rw [Cache.swap]
  rcases swapped : c.store.replace present item with ⟨e | _ | _, t⟩ <;> rw [swapped] at replaces
  · exact replaces.raise replaces.kept
  · exact .ok _ replaces.kept
  · exact .ok _ replaces.kept

theorem drop (coherent : c.Coherent allowed) (present : Item) (answer : α) :
    Steps (Reported allowed) (Coherent allowed) (c.drop present answer) := by
  have removes := (Store.Coherent.removeIf coherent present).mono fun _ => Reported.store
  rw [Cache.drop]
  rcases dropped : c.store.removeIf present with ⟨e | _ | _, t⟩ <;> rw [dropped] at removes
  · exact removes.raise removes.kept
  · exact .ok _ removes.kept
  · exact .ok _ removes.kept

/-- A pass that looks first. -/
theorem onLive (coherent : c.Coherent allowed) {now : Int64} {key : Key} {absent : α}
    {present : Cache → Item → Step (Pass α)}
    (found : ∀ d item, d.Coherent allowed → item.key = key → Steps (Reported allowed) (Coherent allowed) (present d item)) :
    Steps (Reported allowed) (Coherent allowed) (c.onLive now key absent present) := by
  obtain ⟨looks, keyed⟩ := coherent.live now key
  rw [Cache.onLive]
  rcases looked : c.live now key with ⟨e | _ | item, d⟩ <;> rw [looked] at looks
  · exact looks.raise looks.kept
  · exact .ok _ looks.kept
  · exact found d item looks.kept (keyed item d looked)

theorem settle (coherent : c.Coherent allowed) {pass : Cache → Step (Pass α)}
    (passes : ∀ d : Cache, d.Coherent allowed → Steps (Reported allowed) (Coherent allowed) (pass d)) :
    Steps (Reported allowed) (Coherent allowed) (c.settle pass) := by
  suffices repeats : ∀ limit (d : Cache), d.Coherent allowed →
      Steps (Reported allowed) (Coherent allowed) (repeatPass pass limit d) from repeats passLimit c coherent
  intro limit
  induction limit with
  | zero => exact fun d kept => .error .contended kept
  | succ limit ih =>
    intro d kept
    have first := passes d kept
    rw [repeatPass]
    rcases passed : pass d with ⟨e | answer | _, after⟩ <;> rw [passed] at first
    · exact first.raise first.kept
    · exact .ok _ first.kept
    · exact ih after first.kept

theorem set (coherent : c.Coherent allowed) {item : Item} (may : allowed item.key) :
    Steps (Reported allowed) (Coherent allowed) (c.set item) := by
  have puts := (Store.Coherent.put coherent may).mono fun _ => Reported.store
  rw [Cache.set, countSet_store]
  rcases stored : c.store.put item with ⟨e | _, t⟩ <;> rw [stored] at puts
  · exact puts.raise puts.kept
  · exact countStored (.ok _ puts.kept)

theorem addPass (coherent : c.Coherent allowed) (now : Int64) {item : Item} (may : allowed item.key) :
    Steps (Reported allowed) (Coherent allowed) (addPass now item c) := by
  have puts := (Store.Coherent.putIfAbsent coherent may).mono fun _ => Reported.store
  rw [Cache.addPass]
  rcases stored : c.store.putIfAbsent item with ⟨e | _ | present, t⟩ <;> rw [stored] at puts
  · exact puts.raise puts.kept
  · exact .ok _ puts.kept
  · dsimp only
    split
    · exact .ok _ puts.kept
    · exact swap (c := { c with store := t }) puts.kept present may StoreAnswer.stored

theorem casPresent (coherent : c.Coherent allowed) (present : Item) {item : Item} (may : allowed item.key)
    (token : UInt64) : Steps (Reported allowed) (Coherent allowed)
      (if present.cas = token then c.swap present item StoreAnswer.stored else (.ok (.answered .changed), c)) := by
  split
  · exact coherent.swap present may _
  · exact .ok _ coherent

theorem deletePresent (coherent : c.Coherent allowed) {present : Item} (may : allowed present.key) (hold deadline : Int64) :
    Steps (Reported allowed) (Coherent allowed) (if 0 < hold then c.swap present (present.hold deadline) DeleteAnswer.deleted
      else c.drop present .deleted) := by
  split
  · exact coherent.swap present (show allowed (present.hold deadline).key from may) _
  · exact coherent.drop present _

theorem addNumberPresent (coherent : c.Coherent allowed) {present : Item} (may : allowed present.key) (delta : Int64) :
    Steps (Reported allowed) (Coherent allowed) (match present.add delta with
      | .error e => (.error e, c)
      | .ok (updated, value) => c.swap present updated (some value) : Step (Pass (Option UInt64))) := by
  cases summed : present.add delta with
  | ok sum => exact coherent.swap present (show allowed sum.1.key from Item.key_of_add summed ▸ may) _
  | error e =>
    obtain rfl := Item.notANumber_of_add summed
    exact .error .notANumber coherent

theorem getFrom (coherent : c.Coherent allowed) (now : Int64) (keys : List Key) (found : List Item) :
    Steps (Reported allowed) (Coherent allowed) (getFrom now found keys c) := by
  induction keys generalizing found c with
  | nil => exact .ok _ coherent
  | cons key keys ih =>
    obtain ⟨looks, -⟩ := coherent.live now key
    rw [Cache.getFrom]
    rcases looked : c.live now key with ⟨e | _ | item, d⟩ <;> rw [looked] at looks
    · exact looks.raise looks.kept
    · exact ih (c := d.countMiss) looks.kept found
    · exact ih (c := d.countHit) looks.kept (item :: found)

/-- What a read finds lies under the keys asked for. -/
theorem key_of_getFrom (coherent : c.Coherent allowed) {now : Int64} {keys : List Key} {found items : List Item} {d : Cache}
    (read : Cache.getFrom now found keys c = (.ok items, d)) {i : Item} (mem : i ∈ items) : i ∈ found ∨ i.key ∈ keys := by
  induction keys generalizing found c with
  | nil =>
    rw [Cache.getFrom] at read
    obtain rfl := Except.ok.inj (Prod.mk.inj read).1
    exact .inl (List.mem_reverse.1 mem)
  | cons key keys ih =>
    obtain ⟨looks, keyed⟩ := coherent.live now key
    rw [Cache.getFrom] at read
    rcases looked : c.live now key with ⟨e | _ | item, after⟩ <;> rw [looked] at looks read
    · cases read
    · exact (ih (c := after.countMiss) looks.kept read).imp_right (List.mem_cons_of_mem key)
    · rcases ih (c := after.countHit) looks.kept read with before | later
      · rcases List.mem_cons.1 before with rfl | before
        · exact .inr (keyed i after looked ▸ List.mem_cons_self)
        · exact .inl before
      · exact .inr (List.mem_cons_of_mem key later)

/-- Every operation answers, or fails in one of the known ways, and leaves a coherent cache. -/
theorem perform (coherent : c.Coherent allowed) (now : Int64) {op : Operation} (may : op.Allowed allowed) :
    Steps (Reported allowed) (Coherent allowed) (c.perform now op) := by
  have counted : c.countSet.Coherent allowed := coherent
  cases op with
  | get keys => exact map (coherent.getFrom now keys []) _
  | set item => exact map (coherent.set may) _
  | add item => exact map (countStored (counted.settle fun d kept => kept.addPass now may)) _
  | replace item =>
    exact map (countStored (counted.settle fun d kept => kept.onLive fun d present kept keyed =>
      kept.swap present may _)) _
  | append item =>
    exact map (counted.settle fun d kept => kept.onLive fun d present kept keyed =>
      kept.swap present (show allowed (present.append item).key from keyed ▸ may) _) _
  | prepend item =>
    exact map (counted.settle fun d kept => kept.onLive fun d present kept keyed =>
      kept.swap present (show allowed (present.prepend item).key from keyed ▸ may) _) _
  | cas item token =>
    exact map (countStored (counted.settle fun d kept => kept.onLive fun d present kept keyed =>
      kept.casPresent present may token)) _
  | delete key hold =>
    refine map (coherent.settle fun d kept => kept.onLive fun d present kept keyed => ?_) _
    exact kept.deletePresent (keyed ▸ may) hold ((resolveExpiry hold now).getD now)
  | addNumber key delta =>
    refine map (coherent.settle fun d kept => kept.onLive fun d present kept keyed => ?_) _
    exact kept.addNumberPresent (show allowed present.key from keyed ▸ may) delta
  | flushAll => exact .ok _ (Store.Coherent.clear coherent)
  | close => exact .ok _ (Store.Coherent.close c.store)

theorem new (s : StorageSettings) (started : Int64) : (Cache.new s started).Coherent allowed := Store.Coherent.new s

theorem run {ops : List (Int64 × Operation)} (coherent : c.Coherent allowed) (may : ∀ o ∈ ops, o.2.Allowed allowed) :
    (c.run ops).Coherent allowed := by
  induction ops generalizing c with
  | nil => exact coherent
  | cons first later ih =>
    rw [List.forall_mem_cons] at may
    exact ih (coherent.perform first.1 may.1).kept may.2

end Coherent

/-- Every state that operations lead to is coherent. -/
theorem coherent_run (settings : StorageSettings) (started : Int64) (ops : List (Int64 × Operation)) :
    ((new settings started).run ops).Coherent fun _ => True :=
  (Coherent.new settings started).run fun o _ => o.2.allowed_any

end Cache
end BlockCache

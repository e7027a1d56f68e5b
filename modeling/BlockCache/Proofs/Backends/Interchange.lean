import BlockCache.Proofs.Backends.Calls
import BlockCache.Proofs.Backends.Lockstep

/-!
# The two kinds of stores are interchangeable

A new index and a new map store under one item limit and one policy answer every call alike, as long as no byte
limit acts on either of them: they hold the same items under the same CAS values, and the item limit evicts
the same keys. Once closed, both hold nothing and refuse whatever would be stored.
-/

namespace BlockCache.Store

/-- An operation that writes nothing leaves an index and a map matching. -/
theorem matches_of_idle {x : Index} {m : MemoryStore} (matching : x.Matches m) {op : Index.Operation}
    (idle : op.writing? x.view = none) (few : (x.perform op).2.clocks.stamps.issued < UInt64.size) :
    (x.perform op).2.Matches (unwritten m op) := by
  have sound := matching.sound
  cases op with
  | put item => cases idle
  | putIfAbsent item =>
    obtain ⟨present, shown⟩ := Index.Operation.present_of_idle idle
    rw [Index.perform, sound.putIfAbsent_of_present shown]
    exact matching
  | replace expected item =>
    have other := Index.Operation.other_of_idle idle
    rw [Index.perform, sound.replace_of_other fun same => other ⟨sound.key_of_view same, same⟩]
    exact matching
  | get key => exact matching.get key few
  | remove key =>
    obtain ⟨y, answer, after, removes⟩ := sound.remove key
    rw [Index.perform, answer]
    exact matching.removes after removes
  | removeIf expected =>
    rw [unwritten, ← matching.view]
    by_cases same : x.view expected.key = some expected
    · obtain ⟨y, answer, after, removes⟩ := sound.removeIf_of_same same
      rw [Index.perform, answer, if_pos same]
      exact matching.removes after removes
    · rw [Index.perform, sound.removeIf_of_other same, if_neg same]
      exact matching
  | clear =>
    obtain ⟨after, empties, -⟩ := sound.clear
    exact matching.empties after empties rfl rfl ⟨rfl, rfl, rfl⟩ rfl rfl
  | close =>
    obtain ⟨after, empties, -⟩ := Index.Sound.close x
    exact matching.empties after empties rfl rfl ⟨rfl, rfl, rfl⟩ rfl rfl

/-- A store in arenas and one in a map that hold the same, and no more than the item limit allows. -/
inductive InStep : Store → Store → Prop where
  | intro {x : Index} {m : MemoryStore} (matching : x.Matches m) (positive : 0 < x.maxItems)
      (limited : x.size ≤ x.maxItems) : InStep (blocks x) (memory m)

namespace InStep

variable {s t : Store}

theorem new (settings : StorageSettings) (maxBytes : Nat) (positive : 1 ≤ settings.maxItems) :
    (blocks (.new settings)).InStep (memory (.new settings.maxItems maxBytes settings.eviction)) := by
  have matching := Index.Matches.new settings maxBytes
  refine .intro matching positive ?_
  rw [← matching.size_eq]
  exact Nat.zero_le _

theorem view_eq (together : s.InStep t) : s.view = t.view := by
  obtain ⟨matching, -, -⟩ := together
  exact funext matching.view

/-- An operation on which no byte limit acts is performed alike. -/
theorem perform (together : s.InStep t) {op : Index.Operation} (roomy : s.Roomy (.perform op))
    (light : t.Roomy (.perform op)) (few : (s.perform op).2.drawn < UInt64.size) :
    (s.perform op).1 = (t.perform op).1 ∧ (s.perform op).2.InStep (t.perform op).2 := by
  cases together with
  | @intro x m matching positive limited =>
    have sound := matching.sound
    have view : x.view = m.lookup := funext matching.view
    rw [perform_blocks] at few ⊢
    cases writing : op.writing? x.view with
    | none =>
      have after := matches_of_idle matching writing few
      obtain ⟨y, answer, still, -, kept, -, maxItems, -⟩ := sound.perform_of_not_writing writing few
      rw [perform_of_idle (view ▸ writing), ← view]
      rw [answer] at after ⊢
      refine ⟨rfl, .intro after (maxItems ▸ positive) ?_⟩
      rw [maxItems]
      -- What writes nothing adds no key, so the item limit still holds.
      refine Nat.le_trans (sound.size_le still fun key shown => ?_) limited
      exact Index.Operation.of_kept (kept key ▸ shown)
    | some item =>
      have written : op.writing? m.lookup = some item := view ▸ writing
      obtain ⟨accepted, room⟩ := roomy item writing
      obtain ⟨taken, fits⟩ := light item written
      rw [perform_blocks] at accepted
      rw [perform_of_accepted written taken, ← view]
      obtain ⟨first, y, second, z, commits, performed⟩ := sound.commits_of_accepted writing accepted few
      rw [performed] at few ⊢
      obtain ⟨after, holds⟩ := matching.commits commits positive limited room fits few
      obtain ⟨-, evicts⟩ := commits.sound.evicting commits.evicting
      have limit := (commits.writes.shape.trans evicts.shape).maxItems
      exact ⟨rfl, .intro after (limit ▸ positive) holds⟩

/-- What can be read off both without changing them. -/
theorem reads (together : s.InStep t) : (∀ key, s.contains key = t.contains key) ∧ s.size = t.size ∧
    (s.keys : Multiset Key) = t.keys ∧ s.evictions = t.evictions := by
  obtain ⟨matching, -, -⟩ := together
  exact ⟨fun key => (matching.contains_eq key).symm, matching.size_eq.symm, Multiset.coe_eq_coe.2 matching.keys_perm,
    matching.evictions.symm⟩

/-- A call on which no byte limit acts gets one result. -/
theorem call (together : s.InStep t) {c : Call} (roomy : s.Roomy c) (light : t.Roomy c)
    (few : (s.call c).2.drawn < UInt64.size) :
    (s.call c).1 = (t.call c).1 ∧ (s.call c).2.InStep (t.call c).2 := by
  obtain ⟨contains, size, keys, evictions⟩ := together.reads
  cases c with
  | perform op =>
    obtain ⟨answer, after⟩ := together.perform roomy light few
    exact ⟨by rw [Store.call, Store.call, answer], after⟩
  | contains key => exact ⟨by rw [Store.call, Store.call, contains], together⟩
  | size => exact ⟨by rw [Store.call, Store.call, size], together⟩
  | keys => exact ⟨by rw [Store.call, Store.call, keys], together⟩
  | evictions => exact ⟨by rw [Store.call, Store.call, evictions], together⟩

theorem run (together : s.InStep t) {calls : List Call} (roomy : s.RoomyRun calls) (light : t.RoomyRun calls)
    (few : (s.after calls).drawn < UInt64.size) :
    s.results calls = t.results calls ∧ (s.after calls).InStep (t.after calls) := by
  induction calls generalizing s t with
  | nil => exact ⟨rfl, together⟩
  | cons c later ih =>
    have drawn := (s.call c).2.drawn_le_after later
    obtain ⟨result, after⟩ := together.call roomy.1 light.1 (Nat.lt_of_le_of_lt drawn few)
    obtain ⟨results, last⟩ := ih after roomy.2 light.2 few
    exact ⟨List.cons_eq_cons.2 ⟨result, results⟩, last⟩

end InStep

/-- A new store in arenas and a new map under the same item limit and policy are interchangeable. On a run in which no
byte limit acts, every call gets the same result from both, and then both hold the same items. A store of either
kind that was closed answers as an empty one, and refuses whatever would be stored, from then on. -/
theorem interchangeable :
    (∀ (settings : StorageSettings) (maxBytes : Nat) (calls : List Call),
      let x := blocks (.new settings)
      let m := memory (.new settings.maxItems maxBytes settings.eviction)
      1 ≤ settings.maxItems → x.RoomyRun calls → m.RoomyRun calls → (x.after calls).drawn < UInt64.size →
        x.results calls = m.results calls ∧ (x.after calls).view = (m.after calls).view) ∧
    ∀ (s : Store) (later : List Call) (c : Call), c.Shut s.evictions ((s.close.after later).call c).1 := by
  constructor
  · intro settings maxBytes calls x m positive roomy light few
    obtain ⟨results, last⟩ := (InStep.new settings maxBytes positive).run roomy light few
    exact ⟨results, last.view_eq⟩
  · intro s later c
    exact (((closed_close s).after later).call c).1

/-- Under the policy that counts reads and a limit of two items, both evict the key that was not read. -/
theorem interchangeable_item_limit :
    let a : Item := { key := ⟨[97]⟩, data := [1] }
    let b : Item := { key := ⟨[98]⟩, data := [2] }
    let c : Item := { key := ⟨[99]⟩, data := [3] }
    let calls : List Call :=
      [.perform (.put a), .perform (.put b), .perform (.get a.key), .perform (.put c), .evictions, .keys]
    (memory (.new 2 512 .lru)).results calls =
      [.ok (.answer (.item none)), .ok (.answer (.item none)), .ok (.answer (.item (some { a with cas := 1 }))),
        .ok (.answer (.item none)), .ok (.count 1), .ok (.keys {a.key, c.key})] := by
  intro a b c calls
  let settings : StorageSettings :=
    { partitions := 2, bucketsPerPartition := 2, blockSize := 64, maxBytes := 512, ceilingBytes := 0, maxItems := 2 }
  have light : (memory (.new 2 512 .lru)).RoomyRun calls := roomyRun_of_light rfl (by decide) (by decide)
  have same := (interchangeable.1 settings 512 calls (by decide) (by decide +kernel) light (by decide +kernel)).1
  exact same.symm.trans (by decide +kernel)

end BlockCache.Store

import BlockCache.Proofs.Index.Runs

/-!
# The history of an index

An index is a map up to eviction. The log of a run has its writes, removals and evictions, newest first,
and what is held under a key is read off it: the last item written under the key and not removed, cleared
or evicted since. Every answer of the index is the answer that the log gives, so a chain that lost a link,
a region that was reused or bytes that were mixed up would show here.
-/

namespace BlockCache.Index

/-- What happened to the items of an index. -/
inductive Event where
  | wrote (item : Item)
  | removed (key : Key)
  | evicted (key : Key)
  /-- Every item was removed. -/
  | emptied

/-- The item last written under a key and not taken out since; the log has its newest event first. -/
def held : List Event → Key → Option Item
  | [], _ => none
  | .wrote item :: log, key => if key = item.key then some item else held log key
  | .removed gone :: log, key | .evicted gone :: log, key => if key = gone then none else held log key
  | .emptied :: _, _ => none

/-- What an operation that writes nothing does to the items. -/
def Operation.takes (holds : Key → Option Item) : Operation → List Event
  | remove key => [.removed key]
  | removeIf expected => if holds expected.key = some expected then [.removed expected.key] else []
  | clear | close => [.emptied]
  | _ => []

/-- Everything that can be read of the index is what the log says is held. -/
structure Mirrors (x : Index) (log : List Event) : Prop where
  get : ∀ key, (x.get key).1 = .ok (held log key)
  contains : ∀ key, x.contains key = (held log key).isSome
  mem_keys : ∀ key, key ∈ x.keys ↔ held log key ≠ none
  nodup_keys : x.keys.Nodup
  size : x.size = x.keys.length

/-- An operation, its answer, and the log after it. -/
inductive Step (x : Index) (log : List Event) (op : Operation) : Index → List Event → Prop where
  /-- A refused write changes nothing. -/
  | refused {item : Item} : op.writing? (held log) = some item → (x.home item.key).size < item.encodedLength →
      x.perform op = (.error (.outOfSpace item.encodedLength (x.home item.key).freeBytes), x) → Step x log op x log
  /-- An operation that writes nothing evicts nothing, and changes nothing if its condition does not hold. -/
  | took {y : Index} : op.writing? (held log) = none → x.perform op = (.ok (op.answer (held log)), y) →
      y.evictions = x.evictions → (op.Declines (held log) → y = x) → Step x log op y (op.takes (held log) ++ log)
  /-- A write stores its item under the CAS value that it draws, and may evict other keys. -/
  | wrote {y : Index} {item : Item} {gone : List Key} : op.writing? (held log) = some item →
      x.perform op = (.ok (op.answer (held log)), y) → item.key ∉ gone → gone.Nodup →
      (∀ key ∈ gone, held log key ≠ none) → y.evictions = x.evictions + gone.length →
      Step x log op y (gone.map .evicted ++ .wrote { item with cas := x.clocks.cas.next.1 } :: log)

/-- Operations one after the other, with the log before and after; the index mirrors the log all along. -/
inductive History : Index → List Event → List Operation → Index → List Event → Prop where
  | done {x : Index} {log : List Event} : x.Mirrors log → History x log [] x log
  | step {x y z : Index} {log middle final : List Event} {op : Operation} {ops : List Operation} : x.Mirrors log →
      Step x log op y middle → History y middle ops z final → History x log (op :: ops) z final

theorem held_evicted (gone : List Key) (log : List Event) (key : Key) :
    held (gone.map .evicted ++ log) key = if key ∈ gone then none else held log key := by
  induction gone with
  | nil => simp
  | cons first rest ih =>
    rw [List.map_cons, List.cons_append, held, ih]
    by_cases same : key = first <;> simp [same]

/-- The log after an operation that writes nothing says what the operation leaves. -/
theorem held_takes (op : Operation) (log : List Event) : held (op.takes (held log) ++ log) = op.kept (held log) := by
  funext key
  cases op with
  | removeIf expected =>
    simp only [Operation.takes, Operation.kept]
    split
    · rename_i same
      simp [held, same]
    · rename_i other
      simp [other]
  | put _ | putIfAbsent _ | replace _ _ | get _ | remove _ | clear | close => rfl

namespace Sound

variable {x : Index}

theorem mirrors (sound : x.Sound) {log : List Event} (view : x.view = held log) : x.Mirrors log where
  get key := by rw [← view, sound.get_answer]
  contains key := by rw [← view, sound.contains_eq]
  mem_keys key := by
    rw [← view, keys_eq, sound.view_ne_none_iff, List.mem_map]
  nodup_keys := by
    rw [keys_eq]
    exact sound.nodup_keys
  size := by rw [keys_eq, List.length_map, sound.size_eq]

/-- An operation is a step, and the index shows what the log after it says. -/
theorem step (sound : x.Sound) (small : x.Small) (positive : 0 < x.maxItems) {log : List Event}
    (view : x.view = held log) (op : Operation) (few : (x.perform op).2.clocks.stamps.issued < UInt64.size) :
    ∃ after, Step x log op (x.perform op).2 after ∧ (x.perform op).2.view = held after := by
  cases writing : op.writing? x.view with
  | none =>
    obtain ⟨y, performed, -, evictions, kept, declined, -⟩ := sound.perform_of_not_writing writing few
    rw [view] at writing performed kept declined
    rw [performed]
    exact ⟨_, .took writing performed evictions declined, by rw [held_takes]; exact funext kept⟩
  | some item =>
    rcases sound.perform_of_writing writing (fun fits => Nat.lt_of_le_of_lt fits (small item.key)) few with ⟨large, performed⟩ |
      ⟨-, first, y, second, z, commits, performed⟩
    · rw [view] at writing
      rw [performed]
      exact ⟨log, .refused writing large performed, view⟩
    · obtain ⟨-, evicts⟩ := commits.sound.evicting commits.evicting
      have all := commits.writes.evicts evicts (commits.spared positive)
      rw [view] at writing performed
      rw [performed]
      refine ⟨_, .wrote writing performed all.spared all.nodup (fun key mem => ?_) all.evictions, funext fun key => ?_⟩
      · rw [← view]
        exact all.stored key mem
      · rw [held_evicted, held, all.view, view, x.clocks.commit_key]
        by_cases same : key = item.key
        · have kept : key ∉ first ++ second := same ▸ all.spared
          rw [if_pos same, if_neg kept, if_pos same]
          rfl
        · rw [if_neg same, if_neg same]

theorem history {x : Index} (sound : x.Sound) (small : x.Small) (positive : 0 < x.maxItems) {log : List Event}
    (view : x.view = held log) {ops : List Operation} (few : (x.run ops).clocks.stamps.issued < UInt64.size) :
    ∃ after, History x log ops (x.run ops) after := by
  induction ops generalizing x log with
  | nil => exact ⟨log, .done (sound.mirrors view)⟩
  | cons op ops ih =>
    have before := Nat.lt_of_le_of_lt (issued_le_run (x.perform op).2 ops) few
    obtain ⟨next, performs⟩ := sound.perform small op before
    obtain ⟨middle, stepped, shown⟩ := sound.step small positive view op before
    obtain ⟨final, rest⟩ := ih next (performs.small small) (performs.maxItems ▸ positive) shown few
    exact ⟨final, .step (sound.mirrors view) stepped rest⟩

end Sound

/-- Every run of operations on a new index has a history: each answer is the one that the log gives, and what
the index holds is what was last written and not taken out since. The item limit is at least one, arenas
are smaller than 4 GiB, and fewer than 2^64 stamps are drawn. -/
theorem run_history {s : StorageSettings} (positive : 1 ≤ s.maxItems) (small : s.partitionBytes < 2 ^ 32)
    {ops : List Operation} (few : ((new s).run ops).clocks.stamps.issued < 2 ^ 64) :
    ∃ log, History (new s) [] ops ((new s).run ops) log := by
  have view : (new s).view = held [] := funext (view_new s)
  exact (Sound.new s).history (small_new small) positive view few

theorem run_history_overwrite : ∃ log, History (new {}) [] [.put { key := ⟨[97]⟩, data := [1] },
    .put { key := ⟨[97]⟩, data := [2] }, .get ⟨[97]⟩] ((new {}).run [.put { key := ⟨[97]⟩, data := [1] },
    .put { key := ⟨[97]⟩, data := [2] }, .get ⟨[97]⟩]) log :=
  run_history (by decide) (by decide) (Nat.lt_of_le_of_lt (run_issued_le _ _) (by decide))

end BlockCache.Index

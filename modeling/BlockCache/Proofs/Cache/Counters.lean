import BlockCache.Proofs.Cache.Edits

/-!
# What is counted

What an operation adds to the counters can be told from the operation and its answer. A read counts the keys that are
asked for, each as a hit or as a miss; it never fails, so none is left out. A storing verb counts itself, and its
item where it has stored a whole value. Looks, swaps and the loops around them count nothing.
-/

namespace BlockCache

/-- What two have counted. -/
instance : Add Counters where
  add a b := ⟨a.gets + b.gets, a.sets + b.sets, a.hits + b.hits, a.misses + b.misses, a.totalItems + b.totalItems⟩

theorem Counters.add_eq (a b : Counters) : a + b =
    ⟨a.gets + b.gets, a.sets + b.sets, a.hits + b.hits, a.misses + b.misses, a.totalItems + b.totalItems⟩ := rfl

namespace Cache

/-- Whether a verb has stored its item, by its answer. -/
def Reply.isStored : Except StoreError Reply → Bool
  | .ok (.store .stored) => true
  | _ => false

/-- What an operation adds to the counters, by its answer. -/
def Operation.counted : Operation → Except StoreError Reply → Counters
  | get keys, .ok (.items found) => { gets := keys.length, hits := found.length, misses := keys.length - found.length }
  | set _, answer | add _, answer | replace _, answer | cas _ _, answer =>
    { sets := 1, totalItems := (Reply.isStored answer).toNat }
  | append _, _ | prepend _, _ => { sets := 1 }
  | _, _ => {}

section Passes

/-! Passes count nothing. -/

variable (c : Cache)

theorem counters_live (now : Int64) (key : Key) : (c.live now key).2.counters = c.counters := by
  rw [live]
  rcases c.store.get key with ⟨e | _ | item, t⟩
  · rfl
  · rfl
  · dsimp only
    split
    · rcases t.removeIf item with ⟨e | _, u⟩ <;> rfl
    · split <;> rfl

theorem counters_swap (present item : Item) (answer : α) : (c.swap present item answer).2.counters = c.counters := by
  rw [swap]
  rcases c.store.replace present item with ⟨e | _ | _, t⟩ <;> rfl

theorem counters_drop (present : Item) (answer : α) : (c.drop present answer).2.counters = c.counters := by
  rw [drop]
  rcases c.store.removeIf present with ⟨e | _ | _, t⟩ <;> rfl

theorem counters_onLive (now : Int64) (key : Key) (absent : α) {present : Cache → Item → Step (Pass α)}
    (keeps : ∀ d item, (present d item).2.counters = d.counters) :
    (c.onLive now key absent present).2.counters = c.counters := by
  have looked := c.counters_live now key
  rw [onLive]
  rcases result : c.live now key with ⟨e | _ | item, d⟩ <;> rw [result] at looked
  · exact looked
  · exact looked
  · exact (keeps d item).trans looked

theorem counters_addPass (now : Int64) (item : Item) : (addPass now item c).2.counters = c.counters := by
  rw [addPass]
  rcases c.store.putIfAbsent item with ⟨e | _ | present, t⟩
  · rfl
  · rfl
  · dsimp only
    split
    · rfl
    · exact counters_swap { c with store := t } present item StoreAnswer.stored

theorem counters_settle {pass : Cache → Step (Pass α)} (keeps : ∀ d, (pass d).2.counters = d.counters) :
    (c.settle pass).2.counters = c.counters := by
  suffices repeats : ∀ limit (d : Cache), (repeatPass pass limit d).2.counters = d.counters from repeats passLimit c
  intro limit
  induction limit with
  | zero => exact fun d => rfl
  | succ limit ih =>
    intro d
    have first := keeps d
    rw [repeatPass]
    rcases passed : pass d with ⟨e | answer | _, after⟩ <;> rw [passed] at first
    · exact first
    · exact first
    · exact (ih after).trans first

theorem counters_settle_onLive (now : Int64) (key : Key) (absent : α) {present : Cache → Item → Step (Pass α)}
    (keeps : ∀ d item, (present d item).2.counters = d.counters) :
    (c.settle fun c => c.onLive now key absent present).2.counters = c.counters :=
  c.counters_settle fun d => d.counters_onLive now key absent keeps

end Passes

/-- Looking at keys one after the other counts each of them, as a hit or as a miss, and does not fail. -/
theorem counters_getFrom {c : Cache} (coherent : c.Coherent fun _ => True) (now : Int64) (keys : List Key)
    (found : List Item) : ∃ items d hits misses, getFrom now found keys c = (.ok items, d) ∧
      items.length = found.length + hits ∧ hits + misses = keys.length ∧
      d.counters = c.counters + { gets := keys.length, hits, misses } := by
  induction keys generalizing found c with
  | nil => exact ⟨found.reverse, c, 0, 0, rfl, List.length_reverse, rfl, rfl⟩
  | cons key keys ih =>
    obtain ⟨d, looked, after, -⟩ := (Follow.refl coherent now key).live key
    have kept : d.counters = c.counters := (congrArg (·.2.counters) looked).symm.trans (c.counters_live now key)
    rw [getFrom, looked]
    cases c.live? now key with
    | none =>
      obtain ⟨items, e, hits, misses, read, length, all, counters⟩ := ih (c := d.countMiss) after.coherent found
      refine ⟨items, e, hits, misses + 1, read, length, congrArg (· + 1) all, ?_⟩
      rw [counters, countMiss, kept, List.length_cons]
      simp only [Counters.add_eq, Nat.add_assoc, Nat.add_comm 1]
    | some item =>
      obtain ⟨items, e, hits, misses, read, length, all, counters⟩ :=
        ih (c := d.countHit) after.coherent (item :: found)
      rw [List.length_cons] at length
      refine ⟨items, e, hits + 1, misses, read, by omega, by rw [List.length_cons]; omega, ?_⟩
      rw [counters, countHit, kept, List.length_cons]
      simp only [Counters.add_eq, Nat.add_assoc, Nat.add_comm 1]

/-- A verb that brings a whole value counts itself first, and its item if that was stored. -/
theorem counters_countStored {c : Cache} {step : Step StoreAnswer} (kept : step.2.counters = c.countSet.counters) :
    (countStored step).2.counters =
      c.counters + { sets := 1, totalItems := (Reply.isStored ((countStored step).1.map .store)).toNat } := by
  rcases step with ⟨e | answer, ⟨store, counters, started⟩⟩
  · exact kept
  · obtain rfl : counters = c.countSet.counters := kept
    cases answer <;> rfl

theorem counters_set (c : Cache) (item : Item) : (c.set item).2.counters =
    c.counters + { sets := 1, totalItems := (Reply.isStored ((c.set item).1.map .store)).toNat } := by
  rw [set]
  rcases c.countSet.store.put item with ⟨e | old, t⟩ <;> rfl

/-- Every operation adds to the counters what its answer tells. -/
theorem counters_perform {c : Cache} (coherent : c.Coherent fun _ => True) (now : Int64) (op : Operation) :
    (c.perform now op).2.counters = c.counters + op.counted (c.perform now op).1 := by
  cases op with
  | get keys =>
    obtain ⟨items, d, hits, misses, read, length, all, counters⟩ := counters_getFrom coherent now keys []
    rw [perform, get, read]
    change d.counters = _ + { gets := keys.length, hits := items.length, misses := keys.length - items.length }
    rw [counters, length, List.length_nil, Nat.zero_add, ← all, Nat.add_sub_cancel_left]
  | set item => exact c.counters_set item
  | add item => exact counters_countStored (c.countSet.counters_settle fun d => d.counters_addPass now item)
  | replace item =>
    refine counters_countStored (c.countSet.counters_settle_onLive now item.key _ fun d present => ?_)
    exact d.counters_swap present item _
  | append item => exact c.countSet.counters_settle_onLive now item.key _ fun d present => d.counters_swap present _ _
  | prepend item => exact c.countSet.counters_settle_onLive now item.key _ fun d present => d.counters_swap present _ _
  | cas item token =>
    refine counters_countStored (c.countSet.counters_settle_onLive now item.key _ fun d present => ?_)
    split
    · exact d.counters_swap present item _
    · rfl
  | delete key hold =>
    refine c.counters_settle_onLive now key _ fun d present => ?_
    split
    · exact d.counters_swap present _ _
    · exact d.counters_drop present _
  | addNumber key delta =>
    refine c.counters_settle_onLive now key _ fun d present => ?_
    rcases present.add delta with e | ⟨updated, sum⟩
    · rfl
    · exact d.counters_swap present updated _
  | flushAll | close => rfl

/-- A read does not fail, and finds no more items than keys are asked for. -/
theorem get_answers {c : Cache} (coherent : c.Coherent fun _ => True) (now : Int64) (keys : List Key) :
    ∃ found, (c.perform now (.get keys)).1 = .ok (.items found) ∧ found.length ≤ keys.length := by
  obtain ⟨items, d, hits, misses, read, length, all, -⟩ := counters_getFrom coherent now keys []
  refine ⟨items, by rw [perform, get, read]; rfl, ?_⟩
  rw [length, List.length_nil]
  omega

end Cache
end BlockCache

import BlockCache.Proofs.Cache.Commits
import BlockCache.Proofs.Cache.Sparing

/-!
# Edits of one key

Appending to a key's item, prepending to it and adding to its number change the data of the item, and nothing else
but its CAS value; where the key has no live item, they answer so. Reads and all that is done to other keys leave the
item as it is. Either way the item may be evicted, or be removed when its time is over.
-/

namespace BlockCache.Cache

/-- Reads, edits of the key, and what is done to other keys. -/
def Operation.Leaves (key : Key) : Operation → Prop
  | get _ | append _ | prepend _ | addNumber _ _ => True
  | set item | add item | replace item | cas item _ => item.key ≠ key
  | delete other _ => other ≠ key
  | flushAll | close => False

/-- Changes the data of the key's item in place. -/
inductive Operation.Edits (key : Key) : Operation → Prop where
  | append {item : Item} : item.key = key → Edits key (.append item)
  | prepend {item : Item} : item.key = key → Edits key (.prepend item)
  | addNumber (delta : Int64) : Edits key (.addNumber key delta)

theorem Operation.Edits.leaves {op : Operation} {key : Key} (edits : op.Edits key) : op.Leaves key := by
  cases edits <;> trivial

/-- The answer of an edit that finds nothing. -/
def Operation.nothing : Operation → Reply
  | addNumber _ _ => .number none
  | _ => .store .notFound

/-- The data of a key's item after an operation, by its answer. -/
def Operation.edited (key : Key) (data : Bytes) : Operation → Except StoreError Reply → Bytes
  | append item, .ok (.store .stored) => if item.key = key then data ++ item.data else data
  | prepend item, .ok (.store .stored) => if item.key = key then item.data ++ data else data
  | addNumber other _, .ok (.number (some sum)) => if other = key then Decimal.digits sum.toNat else data
  | _, _ => data

/-- A coherent cache that `s` has come to by what leaves a key alone. -/
structure Follow (s : Store) (now : Int64) (key : Key) (d : Cache) : Prop where
  coherent : d.Coherent fun _ => True
  spares : s.Spares now key d.store

namespace Follow

variable {s : Store} {now : Int64} {key : Key} {c : Cache}

theorem refl (coherent : c.Coherent fun _ => True) (now : Int64) (key : Key) : Follow c.store now key c :=
  ⟨coherent, .refl c.store now key⟩

/-- A look at a key answers its live item. -/
theorem live (follow : Follow s now key c) (asked : Key) :
    ∃ d, c.live now asked = (.ok (c.live? now asked), d) ∧ Follow s now key d ∧
      ∀ item, c.live? now asked = some item → d.store.view asked = some item := by
  obtain ⟨t, read, kept, same⟩ := Store.Coherent.get follow.coherent asked
  have reads := Store.Coherent.spares_get follow.coherent now asked key
  rw [read] at reads
  have after := follow.spares.trans reads
  rw [Cache.live, read]
  cases shown : c.store.view asked with
  | none =>
    have nothing : c.live? now asked = none := live?_of_none shown now
    rw [nothing]
    exact ⟨_, rfl, ⟨kept, after⟩, by simp⟩
  | some item =>
    have keyed : item.key = asked := Store.Coherent.key_of_view follow.coherent shown
    have held : t.view item.key = some item := by rw [keyed, same, shown]
    have seen := live?_of_some shown now
    dsimp only
    -- An item past its time is removed, and one that is held back is passed over.
    by_cases past : item.isPurgeableAt now = true
    · have dead : c.live? now asked = none := by simpa [Item.isLiveAt, past] using seen
      obtain ⟨u, removed, final, counted, issued, taken⟩ := kept.removeIf_of_view held
      have purges : t.Spares now key u := by
        refine ⟨?_, Nat.le_of_eq counted.symm, Nat.le_of_eq issued.symm⟩
        by_cases here : key = item.key
        · exact .inr ⟨(taken key).trans (if_pos here), .inr ⟨item, here ▸ held, past⟩⟩
        · exact .inl ((taken key).trans (if_neg here))
      rw [if_pos past, removed, dead]
      exact ⟨_, rfl, ⟨final, after.trans purges⟩, by simp⟩
    · rw [if_neg past]
      by_cases hidden : item.isHeldAt now = true
      · have dead : c.live? now asked = none := by simpa [Item.isLiveAt, hidden] using seen
        rw [if_pos hidden, dead]
        exact ⟨_, rfl, ⟨kept, after⟩, by simp⟩
      · have alive : c.live? now asked = some item := by simpa [Item.isLiveAt, past, hidden] using seen
        rw [if_neg hidden, alive]
        refine ⟨_, rfl, ⟨kept, after⟩, ?_⟩
        rintro _ ⟨⟩
        exact keyed ▸ held

section Others

/-! What is done to other keys. -/

theorem swap (follow : Follow s now key c) (present : Item) {item : Item} (other : item.key ≠ key) (answer : α) :
    Follow s now key (c.swap present item answer).2 := by
  have replaces := Store.Coherent.spares_replace follow.coherent now trivial other.symm present
  have steps : Steps _ (Store.Coherent fun _ => True) (c.store.replace present item) :=
    (Store.Coherent.replace follow.coherent present trivial).1
  rw [Cache.swap]
  rcases swapped : c.store.replace present item with ⟨e | _ | _, t⟩
  all_goals
    rw [swapped] at replaces steps
    exact ⟨steps.kept, follow.spares.trans replaces⟩

theorem drop (follow : Follow s now key c) {present : Item} (held : c.store.view present.key = some present)
    (other : present.key ≠ key) (answer : α) : Follow s now key (c.drop present answer).2 := by
  obtain ⟨t, removed, kept, counted, issued, taken⟩ := Store.Coherent.removeIf_of_view follow.coherent held
  rw [Cache.drop, removed]
  have spares : c.store.Spares now key t :=
    ⟨.inl ((taken key).trans (if_neg other.symm)), Nat.le_of_eq counted.symm, Nat.le_of_eq issued.symm⟩
  exact ⟨kept, follow.spares.trans spares⟩

theorem deletePresent (follow : Follow s now key c) {present : Item} (held : c.store.view present.key = some present)
    (other : present.key ≠ key) (hold deadline : Int64) :
    Follow s now key (if 0 < hold then c.swap present (present.hold deadline) DeleteAnswer.deleted
      else c.drop present .deleted).2 := by
  split
  · exact follow.swap present (show (present.hold deadline).key ≠ key from other) _
  · exact follow.drop held other _

theorem onLive (follow : Follow s now key c) {asked : Key} {absent : α} {present : Cache → Item → Step (Pass α)}
    (found : ∀ d item, Follow s now key d → d.store.view asked = some item → item.key = asked →
      Follow s now key (present d item).2) : Follow s now key (c.onLive now asked absent present).2 := by
  obtain ⟨d, looked, after, held⟩ := follow.live asked
  rw [Cache.onLive, looked]
  cases alive : c.live? now asked with
  | none => exact after
  | some item =>
    have shown := held item alive
    exact found d item after shown (Store.Coherent.key_of_view after.coherent shown)

theorem settle (follow : Follow s now key c) {pass : Cache → Step (Pass α)}
    (passes : ∀ d : Cache, Follow s now key d → Follow s now key (pass d).2) : Follow s now key (c.settle pass).2 := by
  suffices repeats : ∀ limit (d : Cache), Follow s now key d → Follow s now key (repeatPass pass limit d).2 from
    repeats passLimit c follow
  -- A pass that lost its swap has left the key alone as well, and the next one goes on from there.
  intro limit
  induction limit with
  | zero => exact fun d after => after
  | succ limit ih =>
    intro d after
    have first := passes d after
    rw [repeatPass]
    rcases passed : pass d with ⟨e | answer | _, later⟩ <;> rw [passed] at first
    · exact first
    · exact first
    · exact ih later first

theorem countStored {step : Step StoreAnswer} (follow : Follow s now key step.2) :
    Follow s now key (countStored step).2 := by
  refine ⟨?_, (countStored_store step).symm ▸ follow.spares⟩
  rw [Cache.Coherent, countStored_store]
  exact follow.coherent

theorem set (follow : Follow s now key c) {item : Item} (other : item.key ≠ key) : Follow s now key (c.set item).2 := by
  have puts := Store.Coherent.spares_put follow.coherent now trivial other.symm
  have steps : Steps _ (Store.Coherent fun _ => True) (c.store.put item) := Store.Coherent.put follow.coherent trivial
  rw [Cache.set, countSet_store]
  rcases stored : c.store.put item with ⟨e | old, t⟩
  all_goals
    rw [stored] at puts steps
    exact ⟨steps.kept, follow.spares.trans puts⟩

theorem addPass (follow : Follow s now key c) {item : Item} (other : item.key ≠ key) :
    Follow s now key (addPass now item c).2 := by
  have puts := Store.Coherent.spares_putIfAbsent follow.coherent now trivial other.symm
  have steps : Steps _ (Store.Coherent fun _ => True) (c.store.putIfAbsent item) :=
    Store.Coherent.putIfAbsent follow.coherent trivial
  rw [Cache.addPass]
  rcases stored : c.store.putIfAbsent item with ⟨e | _ | present, t⟩ <;> rw [stored] at puts steps
  · exact ⟨steps.kept, follow.spares.trans puts⟩
  · exact ⟨steps.kept, follow.spares.trans puts⟩
  · have after : Follow s now key { c with store := t } := ⟨steps.kept, follow.spares.trans puts⟩
    dsimp only
    split
    · exact after
    · exact after.swap present other StoreAnswer.stored

theorem getFrom (follow : Follow s now key c) (keys : List Key) (found : List Item) :
    Follow s now key (getFrom now found keys c).2 := by
  induction keys generalizing found c with
  | nil => exact follow
  | cons asked keys ih =>
    obtain ⟨d, looked, after, -⟩ := follow.live asked
    rw [Cache.getFrom, looked]
    cases c.live? now asked with
    | none => exact ih (c := d.countMiss) ⟨after.coherent, after.spares⟩ found
    | some item => exact ih (c := d.countHit) ⟨after.coherent, after.spares⟩ (item :: found)

theorem swapLive (follow : Follow s now key c) {asked : Key} (other : asked ≠ key) {absent : α} {answer : α}
    (combine : Item → Item) (keyed : ∀ present, present.key = asked → (combine present).key = asked) :
    Follow s now key (c.settle fun c => c.onLive now asked absent fun c present =>
      c.swap present (combine present) answer).2 :=
  follow.settle fun _ after => after.onLive fun _ present later _ here =>
    later.swap present (by rw [keyed present here]; exact other) answer

end Others

theorem map {step : Step α} (follow : Follow s now key step.2) (f : α → β) :
    Follow s now key (step.map (Except.map f) id).2 :=
  follow

/-- Whatever leaves a key alone and does not edit it. -/
theorem perform (follow : Follow s now key c) {op : Operation} (leaves : op.Leaves key) (other : ¬ op.Edits key) :
    Follow s now key (c.perform now op).2 := by
  have counted : Follow s now key c.countSet := ⟨follow.coherent, follow.spares⟩
  cases op with
  | get keys => exact map (show Follow s now key (c.get now keys).2 from follow.getFrom keys []) _
  | set item => exact map (follow.set leaves) _
  | add item => exact map (countStored (counted.settle fun d after => after.addPass leaves)) _
  | replace item => exact map (countStored (counted.swapLive leaves (fun _ => item) fun _ _ => rfl)) _
  | append item => exact map (counted.swapLive (fun same => other (.append same)) (Item.append · item) fun _ => id) _
  | prepend item => exact map (counted.swapLive (fun same => other (.prepend same)) (Item.prepend · item) fun _ => id) _
  | cas item token =>
    refine map (countStored (counted.settle fun d after => after.onLive fun d present later shown here => ?_)) _
    split
    · exact later.swap present leaves _
    · exact later
  | delete asked hold =>
    refine map (follow.settle fun d after => after.onLive fun d present later shown here => ?_) _
    rw [← here] at shown
    exact later.deletePresent shown (fun same => leaves (here.symm.trans same)) hold ((resolveExpiry hold now).getD now)
  | addNumber asked delta =>
    refine map (follow.settle fun d after => after.onLive fun d present later shown here => ?_) _
    cases summed : present.add delta with
    | error e => exact later
    | ok sum =>
      refine later.swap present ?_ _
      rw [Item.key_of_add summed, here]
      rintro rfl
      exact other (.addNumber delta)
  | flushAll | close => cases leaves

end Follow

/-- How a swap of what a key holds comes out. A swap that is made numbers the new item past all that was drawn before. -/
inductive Swapped (s : Store) (item : Item) (answer : α) : Step α → Prop where
  | refused {e : StoreError} {d : Cache} : e ≠ .notANumber → d.Coherent (fun _ => True) → s.issued ≤ d.store.issued →
      Swapped s item answer (.error e, d)
  | made {n : Nat} {d : Cache} : d.Coherent (fun _ => True) → s.issued < n → n ≤ d.store.issued →
      d.store.view item.key = some (item.numbered n) → Swapped s item answer (.ok answer, d)

/-- How an edit of a key comes out. -/
inductive Edited (c : Cache) (now : Int64) (key : Key) (op : Operation) : Step Reply → Prop where
  | absent {d : Cache} : c.live? now key = none → Follow c.store now key d → Edited c now key op (.ok op.nothing, d)
  | failed {item : Item} {e : StoreError} {d : Cache} : c.live? now key = some item → d.Coherent (fun _ => True) →
      c.store.issued ≤ d.store.issued → (e = .notANumber → d.store.view key = some item) →
      Edited c now key op (.error e, d)
  | made {item : Item} {n : Nat} {reply : Reply} {d : Cache} : c.live? now key = some item →
      d.Coherent (fun _ => True) → op.stored? (.ok reply) = some key → c.store.issued < n → n ≤ d.store.issued →
      d.store.view key = some ((item.withData (op.edited key item.data (.ok reply))).numbered n) →
      Edited c now key op (.ok reply, d)

theorem Edited.nothing_of_dead {c : Cache} {now : Int64} {key : Key} {op : Operation} {r : Step Reply}
    (edited : Edited c now key op r) (dead : c.live? now key = none) : r.1 = .ok op.nothing := by
  cases edited with
  | absent => rfl
  | failed live | made live =>
    rw [dead] at live
    cases live

section Edits

variable {s : Store} {c : Cache} {now : Int64} {key : Key}

theorem Follow.swapped (follow : Follow s now key c) {present : Item} (item : Item)
    (shown : c.store.view item.key = some present) (answer : α) :
    ∃ r : Step α, c.swap present item answer = (r.1.map .answered, r.2) ∧ Swapped s item answer r := by
  have before := follow.spares.issued
  have steps : Steps _ (Store.Coherent fun _ => True) (c.store.replace present item) :=
    (Store.Coherent.replace follow.coherent present trivial).1
  obtain ⟨kept, later, made⟩ := Store.Coherent.replace_of_view follow.coherent trivial shown
  rw [Cache.swap]
  rcases result : c.store.replace present item with ⟨answered, t⟩
  rw [result] at steps kept later made
  rcases made with ⟨e, rfl⟩ | ⟨rfl, there, drawn⟩
  · have known : e ≠ .notANumber := by
      rintro rfl
      cases steps.arises _ rfl
    exact ⟨(.error e, { c with store := t }), rfl, .refused known kept (Nat.le_trans before later)⟩
  · exact ⟨(.ok answer, { c with store := t }), rfl, .made kept (Nat.lt_succ_of_le before) drawn there⟩

/-- The rule of a pass that looks first: what holds if the key has no live item, and what holds of the way on from its
live item if that answers, holds of the pass, which answers. -/
theorem onLive_of_coherent (coherent : c.Coherent fun _ => True) {absent : α} {present : Cache → Item → Step (Pass α)}
    {Q : Step α → Prop} (empty : ∀ d, c.live? now key = none → Follow c.store now key d → Q (.ok absent, d))
    (found : ∀ d item, c.live? now key = some item → Follow c.store now key d → d.store.view item.key = some item →
      item.key = key → ∃ r : Step α, present d item = (r.1.map .answered, r.2) ∧ Q r) :
    ∃ r : Step α, c.onLive now key absent present = (r.1.map .answered, r.2) ∧ Q r := by
  obtain ⟨d, looked, after, held⟩ := (Follow.refl coherent now key).live key
  cases shown : c.live? now key with
  | none =>
    rw [shown] at looked
    exact ⟨(.ok absent, d), by rw [onLive, looked]; rfl, empty d shown after⟩
  | some item =>
    rw [shown] at looked
    have there := held item shown
    have keyed : item.key = key := Store.Coherent.key_of_view after.coherent there
    obtain ⟨r, goes, holds⟩ := found d item shown after (keyed.symm ▸ there) keyed
    exact ⟨r, by rw [onLive, looked]; exact goes, holds⟩

/-- The rule of the edits: what holds if the key has no live item, and what holds of the way on from its live item,
holds of the edit. -/
theorem settle_of_coherent (coherent : c.Coherent fun _ => True) {absent : α} {present : Cache → Item → Step (Pass α)}
    {Q : Step α → Prop} (empty : ∀ d, c.live? now key = none → Follow c.store now key d → Q (.ok absent, d))
    (found : ∀ d item, c.live? now key = some item → Follow c.store now key d → d.store.view item.key = some item →
      item.key = key → ∃ r : Step α, present d item = (r.1.map .answered, r.2) ∧ Q r) :
    Q (c.settle fun c => c.onLive now key absent present) := by
  obtain ⟨r, passed, holds⟩ := onLive_of_coherent coherent empty found
  have settled : (c.settle fun c => c.onLive now key absent present) = r := settle_eq passed
  rw [settled]
  exact holds

/-- Both ways of adding to the data. -/
theorem edited_combine (coherent : c.Coherent fun _ => True) {op : Operation} {entry : Item} (here : entry.key = key)
    (combine : Item → Item → Item) {joined : Bytes → Bytes}
    (combines : ∀ present, combine present entry = present.withData (joined present.data))
    (edits : ∀ data, op.edited key data (.ok (.store .stored)) = joined data)
    (nothing : op.nothing = .store .notFound) (stores : op.stored? (.ok (.store .stored)) = some key) :
    Edited c now key op ((c.countSet.settle (combinePass now combine entry)).map (Except.map .store) id) := by
  subst here
  refine settle_of_coherent (c := c.countSet) (Q := fun r => Edited c now entry.key op (r.map (Except.map .store) id))
    coherent (fun d empty after => ?_) fun d item alive after shown keyed => ?_
  · show Edited c now entry.key op (.ok (.store .notFound), d)
    rw [← nothing]
    exact .absent empty after
  · have there : d.store.view (combine item entry).key = some item := by
      rw [combines]
      exact shown
    obtain ⟨r, goes, swapped⟩ := after.swapped _ there StoreAnswer.stored
    refine ⟨r, goes, ?_⟩
    cases swapped with
    | refused known kept later => exact .failed alive kept later fun same => absurd same known
    | made kept drawn later view =>
      rw [combines, ← edits] at view
      exact .made alive kept stores drawn later (keyed ▸ view)

theorem edited_addNumber (coherent : c.Coherent fun _ => True) (delta : Int64) :
    Edited c now key (.addNumber key delta) (c.perform now (.addNumber key delta)) := by
  refine settle_of_coherent (Q := fun r => Edited c now key _ (r.map (Except.map .number) id)) coherent
    (fun d empty after => .absent empty after) fun d item alive after shown keyed => ?_
  cases summed : item.add delta with
  | error e => exact ⟨(.error e, d), rfl, .failed alive after.coherent after.spares.issued fun _ => keyed ▸ shown⟩
  | ok sum =>
    obtain ⟨updated, value⟩ := sum
    have same : updated = item.withData (Decimal.digits value.toNat) := by
      rw [Item.add] at summed
      split at summed
      · cases summed
      · cases summed
        rfl
    subst same
    obtain ⟨r, goes, swapped⟩ := after.swapped (item.withData (Decimal.digits value.toNat)) shown (some value)
    refine ⟨r, goes, ?_⟩
    cases swapped with
    | refused known kept later => exact .failed alive kept later fun same => absurd same known
    | made kept drawn later view =>
      refine .made alive kept rfl drawn later ?_
      rw [Operation.edited, if_pos rfl]
      exact keyed ▸ view

/-- Every edit of a key finds nothing there, or fails, or stores the item with its data edited. -/
theorem edited_perform (coherent : c.Coherent fun _ => True) {op : Operation} (edits : op.Edits key) :
    Edited c now key op (c.perform now op) := by
  cases edits with
  | @append entry here =>
    exact edited_combine coherent here Item.append (fun _ => rfl) (fun _ => if_pos here) rfl (congrArg some here)
  | @prepend entry here =>
    exact edited_combine coherent here Item.prepend (fun _ => rfl) (fun _ => if_pos here) rfl (congrArg some here)
  | addNumber delta => exact edited_addNumber coherent delta

end Edits

end BlockCache.Cache

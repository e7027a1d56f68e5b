import BlockCache.Proofs.Cache.Passes

/-!
# One verb

What a verb is about to do is a function of the live items: it gives an answer, or it writes one item, or
it removes one or all. Whatever it does, looking may take out items whose time is over, and a write may
evict others. All verbs that look first share one rule: they answer from an empty key, or go on with a
live item.
-/

namespace BlockCache

theorem Item.key_of_add {i : Item} {delta : Int64} {sum : Item × UInt64} (summed : i.add delta = .ok sum) :
    sum.1.key = i.key := by
  unfold Item.add at summed
  split at summed
  · cases summed
  · obtain rfl := Except.ok.inj summed
    rfl

/-- An addition fails only if there is no number to add to. -/
theorem Item.notANumber_of_add {i : Item} {delta : Int64} {e : StoreError} (failed : i.add delta = .error e) :
    e = .notANumber := by
  unfold Item.add Item.number? at failed
  split at failed
  · rename_i fault
    split at fault <;> cases fault
    exact (Except.error.inj failed).symm
  · cases failed

namespace Cache

@[simp] theorem countSet_store (c : Cache) : c.countSet.store = c.store := rfl

@[simp] theorem countStored_store (step : Step StoreAnswer) : (countStored step).2.store = step.2.store := by
  rcases step with ⟨e | answer, d⟩
  · rfl
  · cases answer <;> rfl

section Draws

variable (now : Int64)

theorem draws_set (item : Item) (c : Cache) : c.store.Draws 1 (c.set item).2.store := by
  have puts := c.store.draws_put item
  rw [set, countSet_store]
  rcases stored : c.store.put item with ⟨e | old, t⟩
  · simpa [stored] using puts
  · simpa [stored] using puts

theorem draws_putIfAbsent_addPass (item : Item) (d : Cache) :
    (d.store.putIfAbsent item).2.Draws 1 (addPass now item d).2.store := by
  unfold addPass
  rcases d.store.putIfAbsent item with ⟨e | _ | present, t⟩
  · exact .refl t 1
  · exact .refl t 1
  · dsimp only
    split
    · exact .refl t 1
    · exact draws_swap { d with store := t } present item StoreAnswer.stored

theorem draws_addPass (item : Item) (d : Cache) : d.store.Draws 3 (addPass now item d).2.store :=
  ((d.store.draws_putIfAbsent item).trans (draws_putIfAbsent_addPass now item d)).mono (by decide)

theorem draws_casPresent (item : Item) (token : UInt64) (d : Cache) (present : Item) :
    d.store.Draws 1 (if present.cas = token then d.swap present item StoreAnswer.stored
      else (.ok (.answered .changed), d)).2.store := by
  split
  · exact d.draws_swap present item _
  · exact .refl d.store 1

theorem draws_deletePresent (hold deadline : Int64) (d : Cache) (present : Item) :
    d.store.Draws 1 (if 0 < hold then d.swap present (present.hold deadline) DeleteAnswer.deleted
      else d.drop present .deleted).2.store := by
  split
  · exact d.draws_swap present _ _
  · exact d.draws_drop present _

theorem draws_addNumberPresent (delta : Int64) (d : Cache) (present : Item) :
    d.store.Draws 1 (match present.add delta with
      | .error e => (.error e, d)
      | .ok (updated, value) => d.swap present updated (some value) : Step (Pass (Option UInt64))).2.store := by
  rcases present.add delta with e | ⟨updated, value⟩
  · exact .refl d.store 1
  · exact d.draws_swap present updated _

theorem draws_countStored {s : Store} {n : Nat} {step : Step StoreAnswer} (draws : s.Draws n step.2.store) :
    s.Draws n (countStored step).2.store := by
  rwa [countStored_store]

/-- A verb that looks first. -/
theorem draws_settle_onLive (c : Cache) {key : Key} {absent : α} {present : Cache → Item → Step (Pass α)}
    {pass : Cache → Step (Pass α)} (reads : ∀ c, pass c = c.onLive now key absent present)
    (draws : ∀ (d : Cache) item, d.store.Draws 1 (present d item).2.store) :
    c.store.Draws (3 * passLimit) (c.settle pass).2.store := by
  apply draws_settle
  intro c
  rw [reads]
  exact c.draws_onLive now key absent draws

theorem draws_live_getFrom (key : Key) (keys : List Key) (found : List Item) (c : Cache)
    (rest : ∀ found (d : Cache), d.store.Draws (2 * keys.length) (getFrom now found keys d).2.store) :
    (c.live now key).2.store.Draws (2 * keys.length) (getFrom now found (key :: keys) c).2.store := by
  rw [getFrom]
  rcases c.live now key with ⟨e | _ | item, d⟩
  · exact .refl d.store _
  · exact rest found d.countMiss
  · exact rest (item :: found) d.countHit

theorem draws_getFrom (keys : List Key) (found : List Item) (c : Cache) :
    c.store.Draws (2 * keys.length) (getFrom now found keys c).2.store := by
  induction keys generalizing found c with
  | nil => exact .refl c.store 0
  | cons key keys ih =>
    rw [List.length_cons, Nat.mul_succ, Nat.add_comm]
    exact (c.draws_live now key).trans (draws_live_getFrom now key keys found c ih)

end Draws

/-- What a verb is about to do, once it has looked. -/
inductive Plan (α : Type) where
  /-- Gives an answer. -/
  | tell (reply : Except StoreError α)
  /-- Stores an item, if it is not refused. -/
  | write (item : Item) (answer : α)
  /-- Removes the item of a key. -/
  | drop (key : Key) (answer : α)
  /-- Removes every item. -/
  | empty (answer : α)

namespace Plan

def map (f : α → β) : Plan α → Plan β
  | tell reply => .tell (reply.map f)
  | write item answer => .write item (f answer)
  | drop key answer => .drop key (f answer)
  | empty answer => .empty (f answer)

/-- The answer that a plan leads to, by what is refused. -/
def reply (refusal? : Item → Option StoreError) : Plan α → Except StoreError α
  | tell reply => reply
  | write item answer => Store.attempt (refusal? item) answer
  | drop _ answer | empty answer => .ok answer

/-! The plans of the verbs that look first, by the live item of their key. -/

def add (item : Item) (live : Option Item) : Plan StoreAnswer :=
  live.elim (.write item .stored) fun _ => .tell (.ok .notStored)

def replace (item : Item) (live : Option Item) : Plan StoreAnswer :=
  live.elim (.tell (.ok .notStored)) fun _ => .write item .stored

/-- Both ways of adding to the data. -/
def combine (combine : Item → Item → Item) (item : Item) (live : Option Item) : Plan StoreAnswer :=
  live.elim (.tell (.ok .notFound)) fun present => .write (combine present item) .stored

def cas (item : Item) (token : UInt64) (live : Option Item) : Plan StoreAnswer :=
  live.elim (.tell (.ok .notFound)) fun present =>
    if present.cas = token then .write item .stored else .tell (.ok .changed)

/-- A deletion with a hold keeps the item, held back. -/
def delete (now : Int64) (key : Key) (hold : Int64) (live : Option Item) : Plan DeleteAnswer :=
  live.elim (.tell (.ok .notFound)) fun present =>
    if 0 < hold then .write (present.hold ((resolveExpiry hold now).getD now)) .deleted else .drop key .deleted

def addNumber (delta : Int64) (live : Option Item) : Plan (Option UInt64) :=
  live.elim (.tell (.ok none)) fun present =>
    match present.add delta with
    | .error e => .tell (.error e)
    | .ok (updated, sum) => .write updated (some sum)

end Plan

/-- The item that a plan is about to write. -/
def Plan.item? : Plan α → Option Item
  | .write item _ => some item
  | .tell _ | .drop _ _ | .empty _ => none

/-- A plan writes nothing of 4 GiB or more into an arena, where it would fit. -/
def Plan.Describable (s : Store) (plan : Plan α) : Prop := ∀ item, plan.item? = some item → s.Describes item

theorem Plan.describable_map {s : Store} {plan : Plan α} {f : α → β} :
    (plan.map f).Describable s ↔ plan.Describable s := by
  cases plan <;> exact Iff.rfl

/-- A step that carries out a plan. Looking may have taken out items whose time was over. -/
inductive Follows (s : Store) (now : Int64) : Plan α → Except StoreError α × Store → Prop where
  | told {reply : Except StoreError α} {t : Store} : s.Purges now t → Follows s now (.tell reply) (reply, t)
  | refused {item : Item} {answer : α} {e : StoreError} {t : Store} : s.refusal? item = some e → s.Purges now t →
      Follows s now (.write item answer) (.error e, t)
  | wrote {item : Item} {answer : α} {t u : Store} : s.refusal? item = none → s.Purges now t → u.Sound →
      t.Stores item u → Follows s now (.write item answer) (.ok answer, u)
  | dropped {key : Key} {answer : α} {t u : Store} : s.Purges now t → u.Sound → t.Stays u →
      (∀ other, u.view other = if other = key then none else t.view other) →
      Follows s now (.drop key answer) (.ok answer, u)
  | emptied {answer : α} {t : Store} : t.Sound → s.Stays t → (∀ key, t.view key = none) →
      Follows s now (.empty answer) (.ok answer, t)

namespace Follows

variable {s : Store} {now : Int64} {plan : Plan α} {r : Except StoreError α × Store}

theorem map (follows : Follows s now plan r) (f : α → β) : Follows s now (plan.map f) (r.1.map f, r.2) := by
  cases follows with
  | told purges => exact .told purges
  | refused refused purges => exact .refused refused purges
  | wrote accepted purges sound stores => exact .wrote accepted purges sound stores
  | dropped purges sound stays view => exact .dropped purges sound stays view
  | emptied sound stays view => exact .emptied sound stays view

theorem reply (follows : Follows s now plan r) : r.1 = plan.reply s.refusal? := by
  cases follows with
  | told _ | dropped _ _ _ _ | emptied _ _ _ => rfl
  | refused refused _ => rw [Plan.reply, refused]; rfl
  | wrote accepted _ _ _ => rw [Plan.reply, accepted]; rfl

theorem sound (follows : Follows s now plan r) : r.2.Sound := by
  cases follows with
  | told purges | refused _ purges => exact purges.sound
  | wrote _ _ sound _ | dropped _ sound _ _ | emptied sound _ _ => exact sound

theorem shrinks (follows : Follows s now plan r) : s.Shrinks r.2 := by
  intro item short
  cases follows with
  | told purges | refused _ purges => exact purges.stays.shrinks item short
  | wrote _ purges _ stores => exact stores.shrinks item (purges.stays.shrinks item short)
  | dropped purges _ stays _ => exact stays.shrinks item (purges.stays.shrinks item short)
  | emptied _ stays _ => exact stays.shrinks item short

/-- A key that a plan does not write to keeps what it holds, or loses it. -/
theorem keeps (follows : Follows s now plan r) {key : Key}
    (other : ∀ item answer, plan = .write item answer → r.1 = .ok answer → item.key ≠ key) : s.Keeps r.2 key := by
  cases follows with
  | told purges | refused _ purges => exact purges.keeps key
  | wrote accepted purges sound stores =>
    have elsewhere := stores.elsewhere key fun same => other _ _ rfl rfl same.symm
    exact (purges.keeps key).trans (elsewhere.imp_right And.left)
  | dropped purges sound stays view =>
    refine (purges.keeps key).trans ?_
    rw [Store.Keeps, view]
    split
    · exact .inr rfl
    · exact .inl rfl
  | emptied sound stays view => exact .inr (view key)

/-- An attempt to store an item, made after items were taken out whose time was over. -/
theorem of_attempt {d : Store} {item : Item} {answer : α} (purges : s.Purges now d) (refusal : d.refusal? = s.refusal?)
    (attempt : d.Attempt item answer r) : Follows s now (.write item answer) r := by
  cases attempt with
  | refused refused => exact .refused (refusal ▸ refused) purges
  | stored accepted sound stores => exact .wrote (refusal ▸ accepted) purges sound stores

end Follows

theorem follows_countStored {s : Store} {now : Int64} {plan : Plan StoreAnswer} {step : Step StoreAnswer}
    (follows : Follows s now plan (step.1, step.2.store)) :
    Follows s now plan ((countStored step).1, (countStored step).2.store) := by
  rcases step with ⟨e | answer, d⟩
  · exact follows
  · cases answer <;> exact follows

section Looking

variable {c : Cache} (sound : c.store.Sound) {now : Int64} {key : Key} {absent : α}
  {present : Cache → Item → Step (Pass α)} {pass : Cache → Step (Pass α)}
  (reads : ∀ c, pass c = c.onLive now key absent present)
  (draws : ∀ (d : Cache) item, d.store.Draws 1 (present d item).2.store)
  (few : (c.settle pass).2.store.drawn < UInt64.size)

include sound reads draws few

/-- The rule of the verbs that look first: what holds if the key is empty, and what holds of the way on from
a live item, holds of the verb. -/
theorem settle_onLive {Q : Step α → Prop} (empty : ∀ d, c.live? now key = none → c.Looks now key d → Q (.ok absent, d))
    (found : ∀ d item, c.live? now key = some item → c.Looks now key d →
      (present d item).2.store.drawn < UInt64.size →
      ∃ r : Step α, present d item = (r.1.map .answered, r.2) ∧ Q r) :
    Q (c.settle pass) := by
  obtain rfl : pass = fun c => c.onLive now key absent present := funext reads
  have passed := Nat.lt_of_le_of_lt (c.draws_pass_settle fun c => c.draws_onLive now key absent draws).1 few
  have looked := Nat.lt_of_le_of_lt (c.draws_live_onLive now key absent draws).1 passed
  obtain ⟨d, answer, looks⟩ := live_eq sound looked
  cases shown : c.live? now key with
  | none =>
    have ended : c.onLive now key absent present = (.ok (.answered absent), d) := by
      rw [onLive, answer, shown]
    have settled : (c.settle fun c => c.onLive now key absent present) = (.ok absent, d) := settle_eq ended
    rw [settled]
    exact empty d shown looks
  | some item =>
    have ended : c.onLive now key absent present = present d item := by
      rw [onLive, answer, shown]
    rw [ended] at passed
    obtain ⟨r, goes, holds⟩ := found d item shown looks passed
    rw [settle_eq (ended.trans goes)]
    exact holds

theorem follows_onLive {plan : Item → Plan α}
    (short : ((c.live? now key).elim (.tell (.ok absent)) plan).Describable c.store)
    (found : ∀ d item, c.live? now key = some item → (plan item).Describable c.store → c.Looks now key d →
      (present d item).2.store.drawn < UInt64.size →
      ∃ r : Step α, present d item = (r.1.map .answered, r.2) ∧ Follows c.store now (plan item) (r.1, r.2.store)) :
    Follows c.store now ((c.live? now key).elim (.tell (.ok absent)) plan)
      ((c.settle pass).1, (c.settle pass).2.store) := by
  refine settle_onLive (Q := fun step => Follows c.store now _ (step.1, step.2.store)) sound reads draws few
    (fun d empty looks => ?_) fun d item alive looks fewer => ?_
  · rw [empty]
    exact .told looks.purges
  · rw [alive] at short ⊢
    exact found d item alive short looks fewer

end Looking

/-- A swap of the live item for another one with its key. -/
theorem follows_swap {c d : Cache} {now : Int64} {key : Key} {present item : Item} {answer : α}
    (looks : c.Looks now key d) (alive : c.live? now key = some present) (keyed : item.key = key)
    (short : c.store.Describes item) (few : (d.swap present item answer).2.store.drawn < UInt64.size) :
    ∃ r : Step α, d.swap present item answer = (r.1.map .answered, r.2) ∧
      Follows c.store now (.write item answer) (r.1, r.2.store) := by
  obtain ⟨shown, refusal⟩ := looks.found present alive
  rw [← keyed] at shown
  obtain ⟨r, attempt, swapped⟩ := swap_eq looks.purges.sound shown (looks.purges.stays.shrinks item short) few
  exact ⟨(r.1, { d with store := r.2 }), swapped, .of_attempt looks.purges refusal attempt⟩

section Verbs

variable {c : Cache} (sound : c.store.Sound) (now : Int64) (item : Item)

include sound

theorem set_follows (short : c.store.Describes item) (few : (c.set item).2.store.drawn < UInt64.size) :
    Follows c.store now (.write item .stored) ((c.set item).1, (c.set item).2.store) := by
  have step : c.set item = countStored ((c.store.put item).1.map fun _ => .stored,
      { c.countSet with store := (c.store.put item).2 }) := by
    rw [set, countSet_store]
    rcases c.store.put item with ⟨e | old, t⟩ <;> rfl
  rw [step, countStored_store] at few
  rw [step]
  apply follows_countStored
  exact .of_attempt (.refl sound now) rfl ((sound.put item short few).map fun _ => StoreAnswer.stored)

theorem addPass_of_absent (absent : c.store.view item.key = none) (short : c.store.Describes item)
    (few : (addPass now item c).2.store.drawn < UInt64.size) :
    ∃ r : Except StoreError StoreAnswer × Store, c.store.Attempt item .stored r ∧
      addPass now item c = (r.1.map .answered, { c with store := r.2 }) := by
  have drawn := Nat.lt_of_le_of_lt (draws_putIfAbsent_addPass now item c).1 few
  have added := sound.putIfAbsent_of_absent absent short drawn
  refine ⟨_, added.map fun _ => StoreAnswer.stored, ?_⟩
  rw [addPass]
  rcases result : c.store.putIfAbsent item with ⟨e | _ | old, t⟩
  · rfl
  · rfl
  · rw [result] at added
    cases added

theorem addPass_of_live {present : Item} (shown : c.store.view item.key = some present)
    (alive : present.isLiveAt now = true) : addPass now item c = (.ok (.answered .notStored), c) := by
  rw [addPass, sound.putIfAbsent_of_present shown]
  exact if_pos alive

/-- An item that is found dead under the key is swapped for the new one. -/
theorem addPass_of_dead {present : Item} (shown : c.store.view item.key = some present)
    (dead : ¬present.isLiveAt now = true) : addPass now item c = c.swap present item .stored := by
  rw [addPass, sound.putIfAbsent_of_present shown]
  exact if_neg dead

theorem add_follows (short : (Plan.add item (c.live? now item.key)).Describable c.store)
    (few : (c.add now item).2.store.drawn < UInt64.size) :
    Follows c.store now (.add item (c.live? now item.key)) ((c.add now item).1, (c.add now item).2.store) := by
  rw [add, countStored_store] at few
  apply follows_countStored
  have passed := Nat.lt_of_le_of_lt (c.countSet.draws_pass_settle (draws_addPass now item)).1 few
  have counted : c.countSet.store.Sound := sound
  cases shown : c.store.view item.key with
  | none =>
    rw [live?_of_none shown] at short
    obtain ⟨r, attempt, ended⟩ := addPass_of_absent counted now item shown (short item rfl) passed
    rw [settle_eq (r := (r.1, { c.countSet with store := r.2 })) ended, live?_of_none shown]
    exact .of_attempt (.refl sound now) rfl attempt
  | some present =>
    rw [live?_of_some shown] at short ⊢
    by_cases alive : present.isLiveAt now = true
    · rw [if_pos alive, settle_eq (r := (.ok .notStored, c.countSet)) (addPass_of_live counted now item shown alive)]
      exact .told (.refl sound now)
    · have ended := addPass_of_dead counted now item shown alive
      rw [ended] at passed
      rw [if_neg alive] at short
      obtain ⟨r, attempt, swapped⟩ := swap_eq counted shown (short item rfl) passed
      rw [if_neg alive, settle_eq (r := (r.1, { c.countSet with store := r.2 })) (ended.trans swapped)]
      exact .of_attempt (.refl sound now) rfl attempt

theorem replace_follows (short : (Plan.replace item (c.live? now item.key)).Describable c.store)
    (few : (c.replace now item).2.store.drawn < UInt64.size) :
    Follows c.store now (.replace item (c.live? now item.key))
      ((c.replace now item).1, (c.replace now item).2.store) := by
  rw [replace, countStored_store] at few
  apply follows_countStored
  exact follows_onLive (c := c.countSet) sound (fun _ => rfl) (fun d present => d.draws_swap present item _) few short
    fun d present alive short looks fewer => follows_swap looks alive rfl (short item rfl) fewer

theorem cas_follows (token : UInt64) (short : (Plan.cas item token (c.live? now item.key)).Describable c.store)
    (few : (c.cas now item token).2.store.drawn < UInt64.size) :
    Follows c.store now (.cas item token (c.live? now item.key))
      ((c.cas now item token).1, (c.cas now item token).2.store) := by
  rw [cas, countStored_store] at few
  apply follows_countStored
  refine follows_onLive (c := c.countSet) sound (fun _ => rfl) (draws_casPresent item token) few short
    fun d present alive short looks fewer => ?_
  by_cases same : present.cas = token
  · rw [if_pos same] at fewer short
    rw [if_pos same, if_pos same]
    exact follows_swap looks alive rfl (short item rfl) fewer
  · rw [if_neg same, if_neg same]
    exact ⟨(.ok StoreAnswer.changed, d), rfl, .told looks.purges⟩

/-- Both ways of adding to the data: the key is that of the live item. -/
theorem combine_follows {combine : Item → Item → Item} (keyed : ∀ present, (combine present item).key = present.key)
    (short : (Plan.combine combine item (c.live? now item.key)).Describable c.store)
    (few : (c.countSet.settle (combinePass now combine item)).2.store.drawn < UInt64.size) :
    Follows c.store now (.combine combine item (c.live? now item.key))
      ((c.countSet.settle (combinePass now combine item)).1, (c.countSet.settle (combinePass now combine item)).2.store) := by
  refine follows_onLive (c := c.countSet) sound (fun _ => rfl) (fun d present => d.draws_swap present _ _) few short
    fun d present alive short looks fewer => ?_
  have key : (combine present item).key = item.key :=
    (keyed present).trans (sound.key_of_view (view_of_live alive))
  exact follows_swap looks alive key (short _ rfl) fewer

/-- An item held back is as long as it was, so it always fits. -/
theorem refusal?_hold {key : Key} {present : Item} (alive : c.live? now key = some present) (deadline : Int64) :
    c.store.refusal? (present.hold deadline) = none := by
  have shown := view_of_live alive
  have keyed : present.key = key := sound.key_of_view shown
  rw [← keyed] at shown
  exact sound.refusal?_of_view shown rfl rfl

/-- Where the live item of a key was swapped for itself held back, whatever the key holds is held back. -/
theorem gone_of_hold {key : Key} {present : Item} {deadline : Int64} {r : Step DeleteAnswer}
    (alive : c.live? now key = some present)
    (follows : Follows c.store now (.write (present.hold deadline) .deleted) (r.1, r.2.store)) : r.2.Gone key := by
  have keyed : present.key = key := sound.key_of_view (view_of_live alive)
  have accepted := refusal?_hold sound now alive deadline
  obtain ⟨answer, d⟩ := r
  intro item there
  cases follows with
  | refused refused =>
    rw [accepted] at refused
    cases refused
  | wrote _ _ _ stores =>
    rw [← keyed] at there
    rcases stores.here with here | ⟨-, none_left⟩
    · obtain rfl := Option.some.inj (here.symm.trans there)
      rfl
    · rw [show d.store.view present.key = none from none_left] at there
      cases there

theorem follows_drop {d : Cache} {key : Key} {present : Item} (looks : c.Looks now key d)
    (alive : c.live? now key = some present) :
    ∃ r : Step DeleteAnswer, d.drop present .deleted = (r.1.map .answered, r.2) ∧
      Follows c.store now (.drop key .deleted) (r.1, r.2.store) ∧ r.2.Gone key := by
  have keyed : present.key = key := sound.key_of_view (view_of_live alive)
  obtain ⟨shown, -⟩ := looks.found present alive
  rw [← keyed] at shown
  obtain ⟨t, dropped, after, taken, stays⟩ := drop_eq looks.purges.sound shown DeleteAnswer.deleted
  rw [keyed] at taken
  refine ⟨(.ok .deleted, { d with store := t }), dropped, .dropped looks.purges after stays taken, fun item there => ?_⟩
  rw [taken, if_pos rfl] at there
  cases there

/-- Whatever the hold, a deleted key is then empty or its item is held back. -/
theorem delete_follows (key : Key) (hold : Int64)
    (short : (Plan.delete now key hold (c.live? now key)).Describable c.store)
    (few : (c.delete now key hold).2.store.drawn < UInt64.size) :
    Follows c.store now (.delete now key hold (c.live? now key))
        ((c.delete now key hold).1, (c.delete now key hold).2.store) ∧
      (c.delete now key hold).2.Gone key := by
  refine settle_onLive (Q := fun step => Follows c.store now _ (step.1, step.2.store) ∧ step.2.Gone key) sound
    (fun _ => rfl) (draws_deletePresent hold _) few (fun d empty looks => ?_) fun d present alive looks fewer => ?_
  · rw [empty]
    exact ⟨.told looks.purges, looks.gone empty⟩
  · rw [alive, Plan.delete, Option.elim_some] at short
    rw [alive]
    by_cases held : 0 < hold
    · rw [if_pos held] at fewer short ⊢
      have keyed : present.key = key := sound.key_of_view (view_of_live alive)
      have key_hold : (present.hold ((resolveExpiry hold now).getD now)).key = key := keyed
      obtain ⟨r, swapped, follows⟩ := follows_swap looks alive key_hold (short _ rfl) fewer
      rw [Plan.delete, Option.elim_some, if_pos held]
      exact ⟨r, swapped, follows, gone_of_hold sound now alive follows⟩
    · rw [Plan.delete, Option.elim_some, if_neg held, if_neg held]
      exact follows_drop sound now looks alive

/-- A sum is stored like any other data; data that is not a number is an error. -/
theorem addNumber_follows (key : Key) (delta : Int64)
    (short : (Plan.addNumber delta (c.live? now key)).Describable c.store)
    (few : (c.addNumber now key delta).2.store.drawn < UInt64.size) :
    Follows c.store now (.addNumber delta (c.live? now key))
      ((c.addNumber now key delta).1, (c.addNumber now key delta).2.store) := by
  refine follows_onLive sound (fun _ => rfl) (draws_addNumberPresent delta) few short
    fun d present alive short looks fewer => ?_
  have keyed := sound.key_of_view (view_of_live alive)
  cases summed : present.add delta with
  | error e => exact ⟨(.error e, d), rfl, .told looks.purges⟩
  | ok sum =>
    simp only [summed] at fewer short
    exact follows_swap looks alive ((Item.key_of_add summed).trans keyed) (short _ rfl) fewer

omit sound in
theorem getFrom_cons {d : Cache} {key : Key} {seen : Option Item} (looked : c.live now key = (.ok seen, d))
    (found : List Item) (keys : List Key) :
    ∃ e, e.store = d.store ∧ getFrom now found (key :: keys) c = getFrom now (seen.toList ++ found) keys e := by
  cases seen with
  | none => exact ⟨d.countMiss, rfl, by rw [getFrom, looked]; rfl⟩
  | some item => exact ⟨d.countHit, rfl, by rw [getFrom, looked]; rfl⟩

/-- Items read one after the other are those that were live from the start: a look changes nothing for clients. -/
theorem getFrom_eq (keys : List Key) (found : List Item)
    (few : (getFrom now found keys c).2.store.drawn < UInt64.size) :
    ∃ d, getFrom now found keys c = (.ok (found.reverse ++ keys.filterMap (c.live? now)), d) ∧
      c.store.Purges now d.store := by
  induction keys generalizing found c with
  | nil => exact ⟨c, by simp [getFrom], .refl sound now⟩
  | cons key keys ih =>
    have later := (draws_live_getFrom now key keys found c (draws_getFrom now keys)).1
    obtain ⟨d, answer, looks⟩ := live_eq sound (Nat.lt_of_le_of_lt later few)
    obtain ⟨e, same, step⟩ := getFrom_cons now answer found keys
    have purges : c.store.Purges now e.store := same ▸ looks.purges
    rw [step] at few
    obtain ⟨last, rest, purgesRest⟩ := ih purges.sound _ few
    have unchanged := funext (live?_of_purges purges)
    refine ⟨last, ?_, purges.trans purgesRest⟩
    rw [step, rest, unchanged, List.reverse_append, List.append_assoc]
    cases shown : c.live? now key with
    | none => rw [List.filterMap_cons_none shown]; rfl
    | some item => rw [List.filterMap_cons_some shown]; rfl

end Verbs

end Cache
end BlockCache

import BlockCache.Proofs.Cache.Edits

/-!
# Loops that end at once

A verb that reads and then swaps goes on for as long as the swap finds something else than was read. Its loop is
bounded, and the bound never matters: with nobody else at the store, what was read is still there when the swap is
made. So the first pass answers, in every state and at every time, and no verb ever gives up.
-/

namespace BlockCache

variable {allowed : Key → Prop}

/-- A key that holds an item is left alone, and a key that holds none is never said to hold one. -/
theorem Partition.Coherent.of_putIfAbsent {p q : Partition} {clocks after : Clocks} {item present : Item}
    (coherent : p.Coherent allowed) (found : p.putIfAbsent clocks item = (.ok (some present), q, after)) :
    p.view item.key = some present ∧ q = p ∧ after = clocks := by
  rw [Partition.putIfAbsent, coherent.lookup_eq] at found
  cases shown : p.view item.key with
  | some other =>
    rw [shown] at found
    cases found
    exact ⟨rfl, rfl, rfl⟩
  | none =>
    rw [shown] at found
    rcases stored : p.put clocks item with ⟨e | old, r, later⟩ <;> simp [stored] at found

theorem Index.Coherent.of_putIfAbsent {x y : Index} {item present : Item} (coherent : x.Coherent allowed)
    (found : x.putIfAbsent item = (.ok (some present), y)) : x.view item.key = some present ∧ y = x := by
  rw [Index.putIfAbsent_eq] at found
  rcases result : (x.home item.key).putIfAbsent x.clocks item with ⟨e | _ | other, p, clocks⟩ <;> rw [result] at found
  · cases found
  · dsimp only at found
    split at found <;> cases found
  · obtain ⟨shown, rfl, rfl⟩ := (coherent.home item.key).of_putIfAbsent result
    cases found
    exact ⟨shown, x.place_self item.key⟩

theorem Store.Coherent.of_putIfAbsent {s t : Store} {item present : Item} (coherent : s.Coherent allowed)
    (found : s.putIfAbsent item = (.ok (some present), t)) : s.view item.key = some present ∧ t = s := by
  cases s with
  | blocks x =>
    rcases result : x.putIfAbsent item with ⟨answer, y⟩
    rw [Store.putIfAbsent, result] at found
    cases found
    obtain ⟨shown, rfl⟩ := Index.Coherent.of_putIfAbsent coherent result
    exact ⟨shown, rfl⟩
  | memory m =>
    cases shown : (memory m).view item.key with
    | none =>
      have attempt := Store.Sound.putIfAbsent_of_absent (s := memory m) coherent shown trivial (drawn_memory _)
      rw [found] at attempt
      cases attempt
    | some other =>
      rw [Store.Sound.putIfAbsent_of_present (s := memory m) coherent shown] at found
      cases found
      exact ⟨rfl, rfl⟩

namespace Cache

/-- A loop without a bound: passes are made from a cache on until one answers. The loop ends with `r` after `n` passes. -/
inductive Ends (pass : Cache → Step (Pass α)) : Cache → (n : Nat) → (r : Step α) → Prop where
  | answered {c : Cache} {r : Step α} : pass c = (r.1.map .answered, r.2) → Ends pass c 1 r
  | lost {c d : Cache} {n : Nat} {r : Step α} : pass c = (.ok .lost, d) → Ends pass d n r → Ends pass c (n + 1) r

section Loops

variable {pass : Cache → Step (Pass α)} {c : Cache}

/-- Where a loop ends within the bound, the bounded loop comes to the same. -/
theorem Ends.repeatPass {n : Nat} {r : Step α} (ends : Ends pass c n r) {limit : Nat} (le : n ≤ limit) :
    repeatPass pass limit c = r := by
  induction ends generalizing limit with
  | @answered c r passed =>
    obtain ⟨answer, d⟩ := r
    cases limit with
    | zero => exact absurd le (Nat.not_succ_le_zero 0)
    | succ limit =>
      rw [Cache.repeatPass, passed]
      cases answer <;> rfl
  | lost passed _ ih =>
    cases limit with
    | zero => exact absurd le (Nat.not_succ_le_zero _)
    | succ limit =>
      rw [Cache.repeatPass, passed]
      exact ih (Nat.le_of_succ_le_succ le)

/-- The loop ends after one pass, with `r`, and in no other way. -/
def OnePass (pass : Cache → Step (Pass α)) (c : Cache) (r : Step α) : Prop :=
  ∀ (n : Nat) (s : Step α), Ends pass c n s ↔ n = 1 ∧ s = r

/-- A pass that answers ends the loop, and the bounded loop answers the same. -/
theorem onePass_of_answers (pass : Cache → Step (Pass α)) {c : Cache} {r : Step α}
    (passed : pass c = (r.1.map .answered, r.2)) : OnePass pass c (c.settle pass) := by
  have first : Ends pass c 1 r := .answered passed
  have settled : c.settle pass = r := first.repeatPass (by decide)
  rw [settled]
  intro n s
  constructor
  · intro ends
    obtain ⟨answer, d⟩ := r
    obtain ⟨found, e⟩ := s
    cases ends with
    | answered same =>
      rw [passed] at same
      obtain ⟨answers, rfl⟩ := Prod.mk.inj same
      cases answer <;> cases found <;> cases answers <;> exact ⟨rfl, rfl⟩
    | lost lost later =>
      rw [passed] at lost
      cases answer <;> cases (Prod.mk.inj lost).1
  · rintro ⟨rfl, rfl⟩
    exact first

end Loops

/-- No verb that reads and then swaps makes a second pass. -/
structure NeverRetries (c : Cache) (now : Int64) : Prop where
  /-- What a read has found is swapped, unless the store fails, and it is always removed. -/
  reads : ∀ key present t, c.store.get key = (.ok (some present), t) →
    (∀ item, item.key = key → (t.replace present item).1 ≠ .ok false) ∧ (t.removeIf present).1 = .ok true
  /-- What an addition has found is swapped as well, unless the store fails. -/
  additions : ∀ item present t, c.store.putIfAbsent item = (.ok (some present), t) →
    (t.replace present item).1 ≠ .ok false
  add : ∀ item, ∃ r, OnePass (addPass now item) c.countSet r ∧ c.add now item = countStored r
  replace : ∀ item, ∃ r, OnePass (replacePass now item) c.countSet r ∧ c.replace now item = countStored r
  cas : ∀ item token, ∃ r, OnePass (casPass now item token) c.countSet r ∧ c.cas now item token = countStored r
  append : ∀ item, OnePass (combinePass now Item.append item) c.countSet (c.append now item)
  prepend : ∀ item, OnePass (combinePass now Item.prepend item) c.countSet (c.prepend now item)
  delete : ∀ key hold, OnePass (deletePass now key hold) c (c.delete now key hold)
  addNumber : ∀ key delta, OnePass (addNumberPass now key delta) c (c.addNumber now key delta)

namespace Coherent

variable {c : Cache} (coherent : c.Coherent fun _ => True)

include coherent

/-- A swap for what is there is made, or fails. -/
theorem swap_answers {present : Item} (item : Item) (shown : c.store.view item.key = some present) (answer : α) :
    ∃ r : Step α, c.swap present item answer = (r.1.map .answered, r.2) := by
  obtain ⟨r, swapped, -⟩ := (Follow.refl coherent 0 item.key).swapped item shown answer
  exact ⟨r, swapped⟩

theorem drop_answers {present : Item} (shown : c.store.view present.key = some present) (answer : α) :
    ∃ r : Step α, c.drop present answer = (r.1.map .answered, r.2) := by
  obtain ⟨t, removed, -⟩ := Store.Coherent.removeIf_of_view coherent shown
  exact ⟨(.ok answer, { c with store := t }), by rw [Cache.drop, removed]; rfl⟩

/-- A pass that looks first answers if the way on from a live item does. -/
theorem onLive_answers {now : Int64} {key : Key} {absent : α} {present : Cache → Item → Step (Pass α)}
    (found : ∀ (d : Cache) item, d.Coherent (fun _ => True) → d.store.view item.key = some item → item.key = key →
      ∃ r : Step α, present d item = (r.1.map .answered, r.2)) :
    ∃ r : Step α, c.onLive now key absent present = (r.1.map .answered, r.2) := by
  obtain ⟨r, answers, -⟩ := onLive_of_coherent (Q := fun _ => True) coherent (fun _ _ _ => trivial)
    fun d item _ after shown keyed => (found d item after.coherent shown keyed).imp fun _ answers => ⟨answers, trivial⟩
  exact ⟨r, answers⟩

/-- A live item is swapped for another under its key. -/
theorem onLive_swap_answers (now : Int64) (key : Key) (absent answer : α) (other : Item → Item)
    (keyed : ∀ present, present.key = key → (other present).key = present.key) :
    ∃ r : Step α, (c.onLive now key absent fun c present => c.swap present (other present) answer) =
      (r.1.map .answered, r.2) := by
  refine onLive_answers coherent fun d present kept shown here => kept.swap_answers _ ?_ answer
  rw [keyed present here]
  exact shown

theorem addPass_answers (now : Int64) (item : Item) :
    ∃ r : Step StoreAnswer, Cache.addPass now item c = (r.1.map .answered, r.2) := by
  rw [Cache.addPass]
  rcases added : c.store.putIfAbsent item with ⟨e | _ | present, t⟩
  · exact ⟨(.error e, { c with store := t }), rfl⟩
  · exact ⟨(.ok .stored, { c with store := t }), rfl⟩
  · obtain ⟨shown, rfl⟩ := Store.Coherent.of_putIfAbsent coherent added
    dsimp only
    split
    · exact ⟨(.ok .notStored, c), rfl⟩
    · exact coherent.swap_answers item shown StoreAnswer.stored

theorem casPass_answers (now : Int64) (item : Item) (token : UInt64) :
    ∃ r : Step StoreAnswer, casPass now item token c = (r.1.map .answered, r.2) := by
  refine onLive_answers coherent fun d present kept shown here => ?_
  split
  · exact kept.swap_answers item (here ▸ shown) StoreAnswer.stored
  · exact ⟨(.ok .changed, d), rfl⟩

theorem deletePass_answers (now : Int64) (key : Key) (hold : Int64) :
    ∃ r : Step DeleteAnswer, deletePass now key hold c = (r.1.map .answered, r.2) := by
  refine onLive_answers coherent fun d present kept shown _ => ?_
  split
  · exact kept.swap_answers (present.hold _) shown DeleteAnswer.deleted
  · exact kept.drop_answers shown DeleteAnswer.deleted

theorem addNumberPass_answers (now : Int64) (key : Key) (delta : Int64) :
    ∃ r : Step (Option UInt64), addNumberPass now key delta c = (r.1.map .answered, r.2) := by
  refine onLive_answers coherent fun d present kept shown _ => ?_
  cases summed : present.add delta with
  | error e => exact ⟨(.error e, d), rfl⟩
  | ok sum =>
    rw [← Item.key_of_add summed] at shown
    exact kept.swap_answers sum.1 shown (some sum.2)

theorem swappable_of_get {key : Key} {present : Item} {t : Store} (read : c.store.get key = (.ok (some present), t)) :
    (∀ item, item.key = key → (t.replace present item).1 ≠ .ok false) ∧ (t.removeIf present).1 = .ok true := by
  obtain ⟨u, answer, kept, same⟩ := Store.Coherent.get coherent key
  obtain ⟨shown, rfl⟩ := Prod.mk.inj (answer.symm.trans read)
  have there : u.view key = some present := (same key).trans (Except.ok.inj shown)
  have keyed : present.key = key := Store.Coherent.key_of_view kept there
  constructor
  · rintro item rfl
    exact (Store.Coherent.replace kept present trivial).2.1 keyed there
  · subst keyed
    obtain ⟨v, removed, -⟩ := Store.Coherent.removeIf_of_view kept there
    exact congrArg Prod.fst removed

theorem swappable_of_putIfAbsent {item present : Item} {t : Store}
    (found : c.store.putIfAbsent item = (.ok (some present), t)) : (t.replace present item).1 ≠ .ok false := by
  obtain ⟨shown, rfl⟩ := Store.Coherent.of_putIfAbsent coherent found
  exact (Store.Coherent.replace coherent present trivial).2.1 (Store.Coherent.key_of_view coherent shown) shown

theorem neverRetries (now : Int64) : c.NeverRetries now := by
  have counted : c.countSet.Coherent fun _ => True := coherent
  constructor
  · exact fun key present t => coherent.swappable_of_get
  · exact fun item present t => coherent.swappable_of_putIfAbsent
  · intro item
    obtain ⟨r, answers⟩ := counted.addPass_answers now item
    exact ⟨_, onePass_of_answers _ answers, rfl⟩
  · intro item
    obtain ⟨r, answers⟩ := counted.onLive_swap_answers now item.key StoreAnswer.notStored .stored (fun _ => item)
      fun _ here => here.symm
    exact ⟨_, onePass_of_answers (replacePass now item) answers, rfl⟩
  · intro item token
    obtain ⟨r, answers⟩ := counted.casPass_answers now item token
    exact ⟨_, onePass_of_answers _ answers, rfl⟩
  · intro item
    obtain ⟨r, answers⟩ := counted.onLive_swap_answers now item.key StoreAnswer.notFound .stored
      (Item.append · item) fun _ _ => rfl
    exact onePass_of_answers (combinePass now Item.append item) answers
  · intro item
    obtain ⟨r, answers⟩ := counted.onLive_swap_answers now item.key StoreAnswer.notFound .stored
      (Item.prepend · item) fun _ _ => rfl
    exact onePass_of_answers (combinePass now Item.prepend item) answers
  · intro key hold
    obtain ⟨r, answers⟩ := coherent.deletePass_answers now key hold
    exact onePass_of_answers _ answers
  · intro key delta
    obtain ⟨r, answers⟩ := coherent.addNumberPass_answers now key delta
    exact onePass_of_answers _ answers

end Coherent

/-- In every state that operations lead to, and at every time, the loops of the verbs end with their first pass. -/
theorem loops_end_at_once (settings : StorageSettings) (started : Int64) (earlier : List (Int64 × Operation))
    (now : Int64) : ((new settings started).run earlier).NeverRetries now :=
  (coherent_run settings started earlier).neverRetries now

end Cache
end BlockCache

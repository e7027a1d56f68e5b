import BlockCache.Cache.Verbs
import BlockCache.Proofs.Store

/-!
# One pass

What clients see of a cache at a time are the items that are live then. Looking at a key answers its live
item and removes an item past its time; it never changes what is live. A verb that reads and then swaps
needs one pass, since nobody writes in between. An item held back is live at no time, so a key whose
item is held back stays empty for clients until something is stored under it.
-/

namespace BlockCache

/-- An item held back is never readable: it is unreadable until the hold is over, and gone after that. -/
theorem Item.not_live_of_held {i : Item} (held : i.held = true) (now : Int64) : i.isLiveAt now = false := by
  rw [isLiveAt, isPurgeableAt, isHeldAt, held]
  by_cases before : now < i.heldUntil
  · simp [before]
  · have past : i.heldUntil ≤ now := Int64.not_lt.1 before
    simp [past]

namespace Store

/-- A key holds what it held, or nothing. -/
def Keeps (s t : Store) (key : Key) : Prop := t.view key = s.view key ∨ t.view key = none

theorem Keeps.trans {s t u : Store} {key : Key} (left : s.Keeps t key) (right : t.Keeps u key) : s.Keeps u key := by
  rcases right with same | gone
  · rcases left with before | gone
    · exact .inl (same.trans before)
    · exact .inr (same.trans gone)
  · exact .inr gone

/-- The answer of an attempt to store an item. -/
def attempt (refusal : Option StoreError) (answer : α) : Except StoreError α :=
  match refusal with
  | some e => .error e
  | none => .ok answer

/-- `t` is `s` without some items whose time was over at `now`. -/
structure Purges (s : Store) (now : Int64) (t : Store) : Prop where
  sound : t.Sound
  view : ∀ key, t.view key = s.view key ∨
    t.view key = none ∧ ∃ item, s.view key = some item ∧ item.isPurgeableAt now = true
  stays : s.Stays t

theorem Purges.refl {s : Store} (sound : s.Sound) (now : Int64) : s.Purges now s := ⟨sound, fun _ => .inl rfl, .refl s⟩

theorem Purges.trans {s t u : Store} {now : Int64} (left : s.Purges now t) (right : t.Purges now u) :
    s.Purges now u where
  sound := right.sound
  view key := by
    rcases left.view key with same | gone
    · rw [← same]
      exact right.view key
    · refine .inr ⟨?_, gone.2⟩
      rcases right.view key with same | ⟨none_left, -⟩
      · exact same.trans gone.1
      · exact none_left
  stays := left.stays.trans right.stays

theorem Purges.keeps {s t : Store} {now : Int64} (purges : s.Purges now t) (key : Key) : s.Keeps t key :=
  (purges.view key).imp_right And.left

end Store

namespace Cache

/-- The item that clients can read under a key at a time. -/
def live? (c : Cache) (now : Int64) (key : Key) : Option Item := (c.store.view key).filter (·.isLiveAt now)

theorem view_of_live {c : Cache} {now : Int64} {key : Key} {item : Item} (alive : c.live? now key = some item) :
    c.store.view key = some item :=
  (Option.filter_eq_some_iff.1 alive).1

theorem live?_of_none {c : Cache} {key : Key} (absent : c.store.view key = none) (now : Int64) :
    c.live? now key = none := by
  rw [live?, absent]
  rfl

theorem live?_of_some {c : Cache} {key : Key} {item : Item} (shown : c.store.view key = some item) (now : Int64) :
    c.live? now key = if item.isLiveAt now = true then some item else none := by
  rw [live?, shown, Option.filter_some]

/-- Whatever a key holds is held back. -/
def Gone (c : Cache) (key : Key) : Prop := ∀ item, c.store.view key = some item → item.held = true

theorem live?_of_gone {c : Cache} {key : Key} (gone : c.Gone key) (now : Int64) : c.live? now key = none := by
  rw [live?]
  cases shown : c.store.view key with
  | none => rfl
  | some item => simp [Item.not_live_of_held (gone item shown)]

theorem Gone.keeps {c d : Cache} {key : Key} (gone : c.Gone key) (keeps : c.store.Keeps d.store key) : d.Gone key := by
  intro item shown
  rcases keeps with same | absent
  · exact gone item (same.symm.trans shown)
  · rw [absent] at shown
    cases shown

/-- Items whose time is over are live no more, so that taking them out changes nothing for clients. -/
theorem live?_of_purges {c d : Cache} {now : Int64} (purges : c.store.Purges now d.store) (key : Key) :
    d.live? now key = c.live? now key := by
  rcases purges.view key with same | ⟨gone, item, shown, past⟩
  · rw [live?, live?, same]
  · rw [live?_of_none gone, live?_of_some shown, Item.isLiveAt, past]
    rfl

/-- `d` is `c` after a look at a key. -/
structure Looks (c : Cache) (now : Int64) (key : Key) (d : Cache) : Prop where
  purges : c.store.Purges now d.store
  /-- A live item is left where it is, and so is all else. -/
  found : ∀ item, c.live? now key = some item → d.store.view key = some item ∧ d.store.refusal? = c.store.refusal?
  gone : c.live? now key = none → d.Gone key

theorem draws_get_live (c : Cache) (now : Int64) (key : Key) :
    (c.store.get key).2.Draws 1 (c.live now key).2.store := by
  unfold live
  rcases c.store.get key with ⟨e | _ | item, t⟩
  · exact .refl t 1
  · exact .refl t 1
  · have removes := t.draws_removeIf item
    dsimp only
    split
    · rcases removed : t.removeIf item with ⟨e | _, u⟩ <;> simpa [removed] using removes
    · split <;> exact .refl t 1

theorem draws_live (c : Cache) (now : Int64) (key : Key) : c.store.Draws 2 (c.live now key).2.store :=
  (c.store.draws_get key).trans (c.draws_get_live now key)

/-- A look that removes nothing. -/
theorem Looks.of_same {c : Cache} {now : Int64} {key : Key} {t : Store} (after : t.Sound)
    (view : ∀ other, t.view other = c.store.view other) (refusal : ∀ item, t.refusal? item = c.store.refusal? item)
    (stays : c.store.Stays t) (gone : c.live? now key = none → c.Gone key) : c.Looks now key { c with store := t } where
  purges := ⟨after, fun other => .inl (view other), stays⟩
  found _ alive := ⟨(view key).trans (view_of_live alive), funext refusal⟩
  gone empty item there := gone empty item ((view key).symm.trans there)

/-- A look that removes an item past its time. -/
theorem Looks.of_removed {c : Cache} {now : Int64} {key : Key} {item : Item} {t : Store} (after : t.Sound)
    (view : ∀ other, t.view other = if other = key then none else c.store.view other) (stays : c.store.Stays t)
    (shown : c.store.view key = some item) (past : item.isPurgeableAt now = true) :
    c.Looks now key { c with store := t } where
  purges := ⟨after, fun other => by
    by_cases here : other = key
    · exact .inr ⟨(view other).trans (if_pos here), item, here ▸ shown, past⟩
    · exact .inl ((view other).trans (if_neg here)), stays⟩
  found _ alive := by
    rw [live?_of_some shown, Item.isLiveAt, past] at alive
    cases alive
  gone _ item there := by
    rw [view, if_pos rfl] at there
    cases there

/-- Looking at a key answers its live item. -/
theorem live_eq {c : Cache} (sound : c.store.Sound) {now : Int64} {key : Key}
    (few : (c.live now key).2.store.drawn < UInt64.size) :
    ∃ d, c.live now key = (.ok (c.live? now key), d) ∧ c.Looks now key d := by
  have fewer := Nat.lt_of_le_of_lt (c.draws_get_live now key).1 few
  obtain ⟨t, answer, after, view, refusal, stays⟩ := sound.get key fewer
  unfold live
  rw [answer]
  cases shown : c.store.view key with
  | none =>
    have nothing : c.live? now key = none := live?_of_none shown now
    refine ⟨{ c with store := t }, by rw [nothing], .of_same after view refusal stays fun _ item there => ?_⟩
    rw [shown] at there
    cases there
  | some item =>
    have keyed : item.key = key := sound.key_of_view shown
    have seen := live?_of_some shown now
    dsimp only
    by_cases past : item.isPurgeableAt now = true
    · have dead : c.live? now key = none := by simpa [Item.isLiveAt, past] using seen
      have held : t.view item.key = some item := by rw [keyed, view, shown]
      obtain ⟨u, removed, final, taken, idle⟩ := after.removeIf held
      rw [if_pos past, removed]
      refine ⟨{ c with store := u }, by rw [dead], .of_removed final (fun other => ?_) (stays.trans idle) shown past⟩
      rw [taken, keyed, view]
    · rw [if_neg past]
      by_cases hidden : item.isHeldAt now = true
      · have dead : c.live? now key = none := by simpa [Item.isLiveAt, hidden] using seen
        rw [if_pos hidden]
        refine ⟨{ c with store := t }, by rw [dead], .of_same after view refusal stays fun _ other there => ?_⟩
        rw [shown] at there
        obtain rfl := Option.some.inj there
        rw [Item.isHeldAt, Bool.and_eq_true] at hidden
        exact hidden.1
      · have alive : c.live? now key = some item := by simpa [Item.isLiveAt, past, hidden] using seen
        rw [if_neg hidden]
        refine ⟨{ c with store := t }, by rw [alive], .of_same after view refusal stays fun dead => ?_⟩
        rw [alive] at dead
        cases dead

section Draws

/-! No step takes a stamp back, so what a step draws its passes have drawn; and each step draws a few only. -/

variable (c : Cache)

theorem draws_swap (present item : Item) (answer : α) : c.store.Draws 1 (c.swap present item answer).2.store := by
  have replaces := c.store.draws_replace present item
  unfold swap
  rcases swapped : c.store.replace present item with ⟨e | _ | _, t⟩ <;> simpa [swapped] using replaces

theorem draws_drop (present : Item) (answer : α) : c.store.Draws 1 (c.drop present answer).2.store := by
  have removes := c.store.draws_removeIf present
  unfold drop
  rcases dropped : c.store.removeIf present with ⟨e | _ | _, t⟩ <;> simpa [dropped] using removes

theorem draws_live_onLive (now : Int64) (key : Key) (absent : α) {present : Cache → Item → Step (Pass α)}
    (draws : ∀ (d : Cache) item, d.store.Draws 1 (present d item).2.store) :
    (c.live now key).2.store.Draws 1 (c.onLive now key absent present).2.store := by
  unfold onLive
  rcases c.live now key with ⟨e | _ | item, d⟩
  · exact .refl d.store 1
  · exact .refl d.store 1
  · exact draws d item

theorem draws_onLive (now : Int64) (key : Key) (absent : α) {present : Cache → Item → Step (Pass α)}
    (draws : ∀ (d : Cache) item, d.store.Draws 1 (present d item).2.store) :
    c.store.Draws 3 (c.onLive now key absent present).2.store :=
  (c.draws_live now key).trans (c.draws_live_onLive now key absent draws)

variable {pass : Cache → Step (Pass α)} {n : Nat} (draws : ∀ c : Cache, c.store.Draws n (pass c).2.store)

include draws in
theorem draws_repeatPass (limit : Nat) (c : Cache) : c.store.Draws (n * limit) (repeatPass pass limit c).2.store := by
  induction limit generalizing c with
  | zero => exact .refl c.store 0
  | succ limit ih =>
    have first := draws c
    rw [repeatPass, Nat.mul_succ, Nat.add_comm]
    rcases passed : pass c with ⟨e | answer | _, d⟩ <;> rw [passed] at first
    · exact first.mono (Nat.le_add_right _ _)
    · exact first.mono (Nat.le_add_right _ _)
    · exact first.trans (ih d)

include draws in
theorem draws_pass_settle : (pass c).2.store.Draws (n * 999) (c.settle pass).2.store := by
  rw [settle, passLimit, repeatPass]
  rcases pass c with ⟨e | answer | _, d⟩
  · exact .refl d.store _
  · exact .refl d.store _
  · exact draws_repeatPass draws 999 d

include draws in
theorem draws_settle : c.store.Draws (n * passLimit) (c.settle pass).2.store := draws_repeatPass draws passLimit c

end Draws

/-- A pass that answers is the last one. -/
theorem settle_eq {c : Cache} {pass : Cache → Step (Pass α)} {r : Step α}
    (passed : pass c = (r.1.map .answered, r.2)) : c.settle pass = r := by
  obtain ⟨answer, d⟩ := r
  rw [settle, passLimit, repeatPass, passed]
  cases answer <;> rfl

/-- A swap of what a key holds is an attempt to store, which answers. -/
theorem swap_eq {c : Cache} (sound : c.store.Sound) {present item : Item} (shown : c.store.view item.key = some present)
    (short : c.store.Describes item) {answer : α} (few : (c.swap present item answer).2.store.drawn < UInt64.size) :
    ∃ r : Except StoreError α × Store, c.store.Attempt item answer r ∧
      c.swap present item answer = (r.1.map .answered, { c with store := r.2 }) := by
  have same : (c.swap present item answer).2.store = (c.store.replace present item).2 := by
    unfold swap
    rcases c.store.replace present item with ⟨e | _ | _, t⟩ <;> rfl
  rw [same] at few
  have swapped := sound.replace shown short few
  refine ⟨_, swapped.map fun _ => answer, ?_⟩
  unfold swap
  rcases result : c.store.replace present item with ⟨e | _ | _, t⟩
  · rfl
  · rw [result] at swapped
    cases swapped
  · rfl

theorem drop_eq {c : Cache} (sound : c.store.Sound) {present : Item} (shown : c.store.view present.key = some present)
    (answer : α) : ∃ t : Store, c.drop present answer = (.ok (.answered answer), { c with store := t }) ∧ t.Sound ∧
      (∀ key, t.view key = if key = present.key then none else c.store.view key) ∧ c.store.Stays t := by
  obtain ⟨t, removed, after, taken, stays⟩ := sound.removeIf shown
  exact ⟨t, by rw [drop, removed], after, taken, stays⟩

end Cache
end BlockCache

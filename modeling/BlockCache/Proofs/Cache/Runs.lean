import BlockCache.Proofs.Cache.Verbs
import Mathlib.Algebra.GroupWithZero.Nat

/-!
# Runs of a cache

The verbs as one set of operations, each made at a time of its own; clocks may stand still or go back. The
answers of a run are functions of the live items, at every state that a run leads to. What was deleted
stays unreadable, at every time, until something is stored under its key again.
-/

namespace BlockCache.Cache

/-- What clients can do. -/
inductive Operation where
  | get (keys : List Key)
  | set (item : Item)
  | add (item : Item)
  | replace (item : Item)
  | append (item : Item)
  | prepend (item : Item)
  | cas (item : Item) (token : UInt64)
  | delete (key : Key) (hold : Int64)
  | addNumber (key : Key) (delta : Int64)
  | flushAll
  | close

/-- What clients are told. -/
inductive Reply where
  | items (found : List Item)
  | store (answer : StoreAnswer)
  | delete (answer : DeleteAnswer)
  | number (sum : Option UInt64)
  | done

def perform (c : Cache) (now : Int64) : Operation → Step Reply
  | .get keys => (c.get now keys).map (.map .items) id
  | .set item => (c.set item).map (.map .store) id
  | .add item => (c.add now item).map (.map .store) id
  | .replace item => (c.replace now item).map (.map .store) id
  | .append item => (c.append now item).map (.map .store) id
  | .prepend item => (c.prepend now item).map (.map .store) id
  | .cas item token => (c.cas now item token).map (.map .store) id
  | .delete key hold => (c.delete now key hold).map (.map .delete) id
  | .addNumber key delta => (c.addNumber now key delta).map (.map .number) id
  | .flushAll => (.ok .done, c.flushAll)
  | .close => (.ok .done, c.close)

/-- Operations one after the other, each with its time. -/
def run (c : Cache) : List (Int64 × Operation) → Cache
  | [] => c
  | (now, op) :: later => run (c.perform now op).2 later

theorem run_append (c : Cache) (ops later : List (Int64 × Operation)) : c.run (ops ++ later) = (c.run ops).run later := by
  induction ops generalizing c with
  | nil => rfl
  | cons first rest ih => exact ih (c.perform first.1 first.2).2

theorem run_concat (c : Cache) (ops : List (Int64 × Operation)) (now : Int64) (op : Operation) :
    c.run (ops ++ [(now, op)]) = ((c.run ops).perform now op).2 := run_append c ops [(now, op)]

namespace Operation

/-- The answer to an operation by the live items and by what is refused. -/
def reply (live : Key → Option Item) (refusal? : Item → Option StoreError) : Operation → Except StoreError Reply
  | get keys => .ok (.items (keys.filterMap live))
  | set item => Store.attempt (refusal? item) (.store .stored)
  | add item =>
    match live item.key with
    | some _ => .ok (.store .notStored)
    | none => Store.attempt (refusal? item) (.store .stored)
  | replace item =>
    match live item.key with
    | some _ => Store.attempt (refusal? item) (.store .stored)
    | none => .ok (.store .notStored)
  | append item =>
    match live item.key with
    | some present => Store.attempt (refusal? (present.append item)) (.store .stored)
    | none => .ok (.store .notFound)
  | prepend item =>
    match live item.key with
    | some present => Store.attempt (refusal? (present.prepend item)) (.store .stored)
    | none => .ok (.store .notFound)
  | cas item token =>
    match live item.key with
    | some present =>
      if present.cas = token then Store.attempt (refusal? item) (.store .stored) else .ok (.store .changed)
    | none => .ok (.store .notFound)
  | delete key _ => .ok (.delete (if (live key).isSome then .deleted else .notFound))
  | addNumber key delta =>
    match live key with
    | some present =>
      match present.add delta with
      | .ok (updated, sum) => Store.attempt (refusal? updated) (.number (some sum))
      | .error e => .error e
    | none => .ok (.number none)
  | flushAll | close => .ok .done

/-- What an operation is about to do, by the live items. -/
def plan (now : Int64) (live : Key → Option Item) : Operation → Plan Reply
  | get keys => .tell (.ok (.items (keys.filterMap live)))
  | set item => .write item (.store .stored)
  | add item => (Plan.add item (live item.key)).map .store
  | replace item => (Plan.replace item (live item.key)).map .store
  | append item => (Plan.combine Item.append item (live item.key)).map .store
  | prepend item => (Plan.combine Item.prepend item (live item.key)).map .store
  | cas item token => (Plan.cas item token (live item.key)).map .store
  | delete key hold => (Plan.delete now key hold (live key)).map .delete
  | addNumber key delta => (Plan.addNumber delta (live key)).map .number
  | flushAll | close => .empty .done

/-- The key under which an operation has stored an item, by its answer. Holding an item back is not storing. -/
def stored? : Operation → Except StoreError Reply → Option Key
  | set item, .ok (.store .stored) | add item, .ok (.store .stored) | replace item, .ok (.store .stored) => some item.key
  | append item, .ok (.store .stored) | prepend item, .ok (.store .stored) => some item.key
  | cas item _, .ok (.store .stored) => some item.key
  | addNumber key _, .ok (.number (some _)) => some key
  | _, _ => none

/-- The key whose item an operation holds back, by its answer. -/
def held? : Operation → Except StoreError Reply → Option Key
  | delete key hold, .ok (.delete .deleted) => if 0 < hold then some key else none
  | _, _ => none

/-- The key under which an operation has written an item, by its answer. -/
def written? (op : Operation) (reply : Except StoreError Reply) : Option Key := (op.stored? reply).or (op.held? reply)

theorem written?_error (op : Operation) (e : StoreError) : op.written? (.error e) = none := by
  cases op <;> rfl

theorem of_held? {op : Operation} {reply : Except StoreError Reply} {key : Key} (held : op.held? reply = some key) :
    ∃ hold, op = .delete key hold ∧ reply = .ok (.delete .deleted) := by
  unfold held? at held
  split at held
  · split at held <;> cases held
    exact ⟨_, rfl, rfl⟩
  · cases held

/-- What may be planned for an operation, by what clients are told. -/
inductive Planned (op : Operation) : Plan Reply → Prop where
  /-- Nothing is to change. -/
  | told {reply : Except StoreError Reply} : op.written? reply = none → reply ≠ .ok (.delete .deleted) →
      Planned op (.tell reply)
  | written {item : Item} {answer : Reply} : op.written? (.ok answer) = some item.key → Planned op (.write item answer)
  | dropped {key : Key} {hold : Int64} : op = .delete key hold → ¬0 < hold → Planned op (.drop key (.delete .deleted))
  | emptied : op = .flushAll ∨ op = .close → Planned op (.empty .done)

end Operation

/-- The keys under which the operations of a run store items. -/
def stored (c : Cache) : List (Int64 × Operation) → List Key
  | [] => []
  | (now, op) :: later => (op.stored? (c.perform now op).1).toList ++ stored (c.perform now op).2 later

/-- How many stamps an operation may draw. -/
def Operation.stamps : Operation → Nat
  | get keys => 2 * keys.length
  | _ => 3 * passLimit

section Draws

variable (c : Cache)

theorem draws_perform (now : Int64) (op : Operation) : c.store.Draws op.stamps (c.perform now op).2.store := by
  cases op with
  | get keys => exact draws_getFrom now keys [] c
  | set item => exact (draws_set item c).mono (show 1 ≤ 3 * passLimit by decide)
  | add item => exact draws_countStored (c.countSet.draws_settle (draws_addPass now item))
  | replace item =>
    apply draws_countStored
    exact draws_settle_onLive now c.countSet (fun _ => rfl) fun d present => d.draws_swap present item _
  | append item => exact draws_settle_onLive now c.countSet (fun _ => rfl) fun d present => d.draws_swap present _ _
  | prepend item => exact draws_settle_onLive now c.countSet (fun _ => rfl) fun d present => d.draws_swap present _ _
  | cas item token =>
    apply draws_countStored
    exact draws_settle_onLive now c.countSet (fun _ => rfl) (draws_casPresent item token)
  | delete key hold => exact draws_settle_onLive now c (fun _ => rfl) (draws_deletePresent hold _)
  | addNumber key delta => exact draws_settle_onLive now c (fun _ => rfl) (draws_addNumberPresent delta)
  | flushAll => exact c.store.draws_clear.mono (by decide)
  | close => exact c.store.draws_close.mono (by decide)

theorem draws_run (ops : List (Int64 × Operation)) :
    c.store.Draws (ops.map (·.2.stamps)).sum (c.run ops).store := by
  induction ops generalizing c with
  | nil => exact .refl c.store 0
  | cons first later ih =>
    rw [List.map_cons, List.sum_cons]
    exact (c.draws_perform first.1 first.2).trans (ih (c.perform first.1 first.2).2)

end Draws

/-- No operation of a run writes an item of 4 GiB or more into an arena, where it would fit. -/
def Describable (c : Cache) : List (Int64 × Operation) → Prop
  | [] => True
  | (now, op) :: later => (op.plan now (c.live? now)).Describable c.store ∧ Describable (c.perform now op).2 later

theorem describable_append (c : Cache) (ops later : List (Int64 × Operation)) :
    c.Describable (ops ++ later) ↔ c.Describable ops ∧ (c.run ops).Describable later := by
  induction ops generalizing c with
  | nil => exact ⟨fun rest => ⟨trivial, rest⟩, And.right⟩
  | cons first rest ih =>
    rw [List.cons_append, Describable, Describable, ih, and_assoc]
    rfl

section Step

variable {c : Cache} (sound : c.store.Sound) {now : Int64} (op : Operation)

include sound

/-- Every operation carries out its plan. -/
theorem follows (short : (op.plan now (c.live? now)).Describable c.store)
    (few : (c.perform now op).2.store.drawn < UInt64.size) :
    Follows c.store now (op.plan now (c.live? now)) ((c.perform now op).1, (c.perform now op).2.store) := by
  cases op with
  | get keys =>
    obtain ⟨d, answer, purges⟩ := getFrom_eq sound now keys [] few
    have step : c.perform now (.get keys) = (.ok (.items (keys.filterMap (c.live? now))), d) := by
      rw [perform, get, answer]
      rfl
    rw [step]
    exact .told purges
  | set item => exact (set_follows sound now item (short item rfl) few).map Reply.store
  | add item => exact (add_follows sound now item (Plan.describable_map.1 short) few).map Reply.store
  | replace item => exact (replace_follows sound now item (Plan.describable_map.1 short) few).map Reply.store
  | append item | prepend item =>
    exact (combine_follows sound now item (fun _ => rfl) (Plan.describable_map.1 short) few).map Reply.store
  | cas item token => exact (cas_follows sound now item token (Plan.describable_map.1 short) few).map Reply.store
  | delete key hold => exact (delete_follows sound now key hold (Plan.describable_map.1 short) few).1.map Reply.delete
  | addNumber key delta =>
    exact (addNumber_follows sound now key delta (Plan.describable_map.1 short) few).map Reply.number
  | flushAll =>
    obtain ⟨after, empty, stays⟩ := sound.clear
    exact .emptied after stays empty
  | close =>
    obtain ⟨after, empty, stays⟩ := Store.Sound.close c.store
    exact .emptied after stays empty

/-- A plan leads to the answer that clients expect. -/
theorem reply_plan : (op.plan now (c.live? now)).reply c.store.refusal? = op.reply (c.live? now) c.store.refusal? := by
  cases op with
  | get _ | set _ | flushAll | close => rfl
  | add item | replace item | append item | prepend item =>
    rw [Operation.plan, Operation.reply]
    cases c.live? now item.key <;> rfl
  | cas item token =>
    rw [Operation.plan, Operation.reply, Plan.cas]
    cases c.live? now item.key with
    | none => rfl
    | some present =>
      dsimp only [Option.elim_some]
      split <;> rfl
  | delete key hold =>
    rw [Operation.plan, Operation.reply, Plan.delete]
    cases alive : c.live? now key with
    | none => rfl
    | some present =>
      rw [Option.elim_some]
      split
      · rw [Plan.map, Plan.reply, refusal?_hold sound now alive]
        rfl
      · rfl
  | addNumber key delta =>
    rw [Operation.plan, Operation.reply, Plan.addNumber]
    cases c.live? now key with
    | none => rfl
    | some present =>
      dsimp only [Option.elim_some]
      rcases present.add delta with e | sum <;> rfl

/-- Clients can tell from an answer what was planned. -/
theorem planned : op.Planned (op.plan now (c.live? now)) := by
  have keyed {key : Key} {present : Item} (alive : c.live? now key = some present) : present.key = key :=
    sound.key_of_view (view_of_live alive)
  cases op with
  | get keys => exact .told rfl (by simp)
  | set item => exact .written rfl
  | add item =>
    rw [Operation.plan]
    cases c.live? now item.key with
    | none => exact .written rfl
    | some present => exact .told rfl (by simp [Except.map])
  | replace item =>
    rw [Operation.plan]
    cases c.live? now item.key with
    | none => exact .told rfl (by simp [Except.map])
    | some present => exact .written rfl
  | append item | prepend item =>
    rw [Operation.plan]
    cases alive : c.live? now item.key with
    | none => exact .told rfl (by simp [Except.map])
    | some present => exact .written (congrArg some (keyed alive).symm)
  | cas item token =>
    rw [Operation.plan, Plan.cas]
    cases c.live? now item.key with
    | none => exact .told rfl (by simp [Except.map])
    | some present =>
      rw [Option.elim_some]
      split
      · exact .written rfl
      · exact .told rfl (by simp [Except.map])
  | delete key hold =>
    rw [Operation.plan, Plan.delete]
    cases alive : c.live? now key with
    | none => exact .told rfl (by simp [Except.map])
    | some present =>
      rw [Option.elim_some]
      split
      · rename_i positive
        exact .written ((if_pos positive).trans (congrArg some (keyed alive).symm))
      · rename_i none_held
        exact .dropped rfl none_held
  | addNumber key delta =>
    rw [Operation.plan, Plan.addNumber]
    cases alive : c.live? now key with
    | none => exact .told rfl (by simp [Except.map])
    | some present =>
      dsimp only [Option.elim_some]
      rcases summed : present.add delta with e | sum
      · exact .told rfl (by simp [Except.map])
      · exact .written (congrArg some ((Item.key_of_add summed).trans (keyed alive)).symm)
  | flushAll => exact .emptied (.inl rfl)
  | close => exact .emptied (.inr rfl)

end Step

/-- What an operation does, of all that runs depend on. -/
structure Performs (c : Cache) (now : Int64) (op : Operation) (step : Step Reply) : Prop where
  reply : step.1 = op.reply (c.live? now) c.store.refusal?
  sound : step.2.store.Sound
  shrinks : c.store.Shrinks step.2.store
  keeps : ∀ key, op.stored? step.1 ≠ some key → (∀ hold, op ≠ .delete key hold) → c.store.Keeps step.2.store key
  deletes : ∀ key hold, op = .delete key hold → step.2.Gone key
  reads : ∀ keys, op = .get keys → ∀ key, step.2.live? now key = c.live? now key

/-- Every operation, made at a sound state, answers by the live items. -/
theorem performs {c : Cache} (sound : c.store.Sound) {now : Int64} (op : Operation)
    (short : (op.plan now (c.live? now)).Describable c.store)
    (few : (c.perform now op).2.store.drawn < UInt64.size) : Performs c now op (c.perform now op) := by
  have follows := follows sound op short few
  constructor
  · exact follows.reply.trans (reply_plan sound op)
  · exact follows.sound
  · exact follows.shrinks
  · intro key unwritten undeleted
    apply follows.keeps
    rintro item answer writes answered rfl
    rw [show (c.perform now op).1 = .ok answer from answered] at unwritten
    have planned : op.Planned (op.plan now (c.live? now)) := planned sound op
    rw [writes] at planned
    cases planned with
    | written written =>
      rcases Option.or_eq_some_iff.1 written with stored | ⟨-, held⟩
      · exact unwritten stored
      · obtain ⟨hold, deletes, -⟩ := Operation.of_held? held
        exact undeleted hold deletes
  · rintro key hold rfl
    exact (delete_follows sound now key hold (Plan.describable_map.1 short) few).2
  · rintro keys rfl key
    obtain ⟨d, answer, purges⟩ := getFrom_eq sound now keys [] few
    have same : (c.perform now (.get keys)).2 = d := congrArg Prod.snd answer
    rw [same]
    exact live?_of_purges purges key

/-- What is gone from a key stays gone until something is stored under it. -/
theorem Performs.gone {c : Cache} {now : Int64} {op : Operation} {step : Step Reply} (performs : Performs c now op step)
    {key : Key} (gone : c.Gone key) (unwritten : op.stored? step.1 ≠ some key) : step.2.Gone key := by
  by_cases deleted : ∃ hold, op = .delete key hold
  · obtain ⟨hold, deleted⟩ := deleted
    exact performs.deletes key hold deleted
  · apply gone.keeps
    exact performs.keeps key unwritten fun hold same => deleted ⟨hold, same⟩

section Run

variable {c : Cache} {ops : List (Int64 × Operation)}

theorem sound_run (sound : c.store.Sound) (short : c.Describable ops)
    (few : (c.run ops).store.drawn < UInt64.size) : (c.run ops).store.Sound := by
  induction ops generalizing c with
  | nil => exact sound
  | cons first later ih =>
    obtain ⟨now, op⟩ := first
    have fewer := Nat.lt_of_le_of_lt (draws_run (c.perform now op).2 later).1 few
    exact ih (performs sound op short.1 fewer).sound short.2 few

/-- In small arenas no item of 4 GiB fits. -/
theorem describable_of_small (sound : c.store.Sound) (small : c.store.Small)
    (few : (c.run ops).store.drawn < UInt64.size) : c.Describable ops := by
  induction ops generalizing c with
  | nil => trivial
  | cons first later ih =>
    obtain ⟨now, op⟩ := first
    have fewer := Nat.lt_of_le_of_lt (draws_run (c.perform now op).2 later).1 few
    have short : (op.plan now (c.live? now)).Describable c.store := fun item _ => small item
    have step := performs sound op short fewer
    exact ⟨short, ih step.sound (fun item => step.shrinks item (small item)) few⟩

theorem shrinks_run (sound : c.store.Sound) (short : c.Describable ops)
    (few : (c.run ops).store.drawn < UInt64.size) : c.store.Shrinks (c.run ops).store := by
  induction ops generalizing c with
  | nil => exact fun _ described => described
  | cons first later ih =>
    obtain ⟨now, op⟩ := first
    have fewer := Nat.lt_of_le_of_lt (draws_run (c.perform now op).2 later).1 few
    have step := performs sound op short.1 fewer
    exact fun item described => ih step.sound short.2 few item (step.shrinks item described)

theorem gone_run (sound : c.store.Sound) {key : Key} (gone : c.Gone key) (unwritten : key ∉ c.stored ops)
    (short : c.Describable ops) (few : (c.run ops).store.drawn < UInt64.size) : (c.run ops).Gone key := by
  induction ops generalizing c with
  | nil => exact gone
  | cons first later ih =>
    obtain ⟨now, op⟩ := first
    have fewer := Nat.lt_of_le_of_lt (draws_run (c.perform now op).2 later).1 few
    have step := performs sound op short.1 fewer
    rw [stored, List.mem_append, Option.mem_toList, not_or] at unwritten
    exact ih step.sound (step.gone gone unwritten.1) unwritten.2 short.2 few

end Run

/-- What clients are told at a state, and what they see after it. -/
structure Serves (c : Cache) (now : Int64) (op : Operation) (later : List (Int64 × Operation)) : Prop where
  /-- The answer is that of the live items, unless the item to be written is refused. -/
  reply : (c.perform now op).1 = op.reply (c.live? now) c.store.refusal?
  /-- Items are refused for space only. -/
  refusal : ∀ item e, c.store.refusal? item = some e → ∃ requested available, e = .outOfSpace requested available
  /-- Reading changes nothing for clients. -/
  reads : ∀ keys, op = .get keys → (c.perform now op).2.live? now = c.live? now
  /-- What was deleted, with any hold, is live at no time until something is stored under its key. -/
  deletes : ∀ key hold, op = .delete key hold → key ∉ (c.perform now op).2.stored later →
    ∀ time, ((c.perform now op).2.run later).live? time key = none

/-- In every run on a new cache, each verb acts on the items that are live at its time. The item limit is at
least one, arenas are smaller than 4 GiB, and fewer than 2^64 stamps are drawn. -/
theorem verbs_act_on_live_items {s : StorageSettings} (_positive : 1 ≤ s.maxItems)
    (small : s.backend = .block → s.partitionBytes < 2 ^ 32) (started : Int64) (earlier : List (Int64 × Operation))
    (now : Int64) (op : Operation) (later : List (Int64 × Operation))
    (few : ((((new s started).run earlier).perform now op).2.run later).store.drawn < 2 ^ 64) :
    ((new s started).run earlier).Serves now op later := by
  have fewer := Nat.lt_of_le_of_lt (draws_run _ later).1 few
  have before := Nat.lt_of_le_of_lt (draws_perform _ now op).1 fewer
  have whole : (new s started).run (earlier ++ (now, op) :: later) =
      ((((new s started).run earlier).perform now op).2.run later) := run_append _ _ _
  obtain ⟨described, short, shortAfter⟩ := (describable_append _ earlier ((now, op) :: later)).1
    (describable_of_small (.new s) (Store.small_new small) (whole ▸ few))
  have sound : ((new s started).run earlier).store.Sound := sound_run (.new s) described before
  have step := performs sound op short fewer
  constructor
  · exact step.reply
  · exact fun item e => Store.outOfSpace_of_refusal?
  · exact fun keys read => funext (step.reads keys read)
  · intro key hold deleted unwritten time
    apply live?_of_gone
    exact gone_run step.sound (step.deletes key hold deleted) unwritten shortAfter few

theorem verbs_act_on_live_items_held : Serves ((new {} 0).run [(10, .set { key := ⟨[97]⟩, data := [1] })]) 11
    (.delete ⟨[97]⟩ 60) [(12, .get [⟨[97]⟩]), (80, .set { key := ⟨[98]⟩, data := [2] })] := by
  apply verbs_act_on_live_items (by decide) (by decide) 0
  apply Nat.lt_of_le_of_lt (((draws_run _ _).trans (draws_perform _ _ _)).trans (draws_run _ _)).2
  decide

end BlockCache.Cache

import BlockCache.Proofs.Cache.Runs

/-!
# CAS values over a run

Each commit of an item draws the next CAS value, and nothing else draws one. The commits of a run are
numbered by them: what a key holds carries the number of the commit that put it there. So a value that
was read once names one commit for good. What takes the place of an item carries another number, and an
item that was lost never returns.
-/

namespace BlockCache

/-- An item as the `n`-th commit of a store stores it. -/
def Item.numbered (i : Item) (n : Nat) : Item := { i with cas := n.toUInt64 }

namespace Cache

/-- The item that a step commits: what it was about to write, unless that was refused. -/
def Plan.commit? : Plan α → Except StoreError α → Option Item
  | .write item _, .ok _ => some item
  | _, _ => none

/-- The item that an operation commits, as it is before it gets its CAS value. -/
def commit? (c : Cache) (now : Int64) (op : Operation) : Option Item :=
  (op.plan now (c.live? now)).commit? (c.perform now op).1

/-- The items that a run commits, in their order. -/
def commits (c : Cache) : List (Int64 × Operation) → List Item
  | [] => []
  | (now, op) :: later => (c.commit? now op).toList ++ commits (c.perform now op).2 later

theorem commits_append (c : Cache) (earlier later : List (Int64 × Operation)) :
    c.commits (earlier ++ later) = c.commits earlier ++ (c.run earlier).commits later := by
  induction earlier generalizing c with
  | nil => rfl
  | cons first rest ih =>
    have rest := ih (c.perform first.1 first.2).2
    rw [List.cons_append, commits, commits, rest, List.append_assoc]
    rfl

section Numbers

variable {history : List Item}

/-- An item is one of the commits of a history, with its number. -/
def Recorded (history : List Item) (i : Item) : Prop :=
  ∃ (n : Nat) (written : Item), history[n]? = some written ∧ i = written.numbered (n + 1)

theorem Recorded.append {i : Item} (recorded : Recorded history i) (later : List Item) :
    Recorded (history ++ later) i := by
  obtain ⟨n, written, there, rfl⟩ := recorded
  obtain ⟨inside, -⟩ := List.getElem?_eq_some_iff.1 there
  exact ⟨n, written, (List.getElem?_append_left inside).trans there, rfl⟩

/-- The next commit is recorded behind those before it. -/
theorem recorded_last (history : List Item) (written : Item) :
    Recorded (history ++ [written]) (written.numbered (history.length + 1)) :=
  ⟨history.length, written, List.getElem?_concat_length, rfl⟩

theorem Recorded.cas_toNat {i : Item} (recorded : Recorded history i) (few : history.length < UInt64.size) :
    ∃ (n : Nat) (written : Item), history[n]? = some written ∧ i = written.numbered (n + 1) ∧ i.cas.toNat = n + 1 := by
  obtain ⟨n, written, there, rfl⟩ := recorded
  obtain ⟨inside, -⟩ := List.getElem?_eq_some_iff.1 there
  have fits : n + 1 < UInt64.size := by omega
  exact ⟨n, written, there, rfl, UInt64.toNat_ofNat_of_lt' fits⟩

/-- No two commits carry the same value. -/
theorem Recorded.eq_of_cas {i j : Item} (left : Recorded history i) (right : Recorded history j)
    (few : history.length < UInt64.size) (same : i.cas = j.cas) : i = j := by
  obtain ⟨m, first, there, rfl, number⟩ := left.cas_toNat few
  obtain ⟨n, second, here, rfl, other⟩ := right.cas_toNat few
  rw [same, other, Nat.add_right_cancel_iff] at number
  subst number
  rw [there] at here
  obtain rfl := Option.some.inj here
  rfl

theorem Recorded.cas_ne_zero {i : Item} (recorded : Recorded history i) (few : history.length < UInt64.size) :
    i.cas ≠ 0 := by
  obtain ⟨n, -, -, -, number⟩ := recorded.cas_toNat few
  rintro zero
  rw [zero] at number
  exact absurd number.symm (Nat.succ_ne_zero n)

/-- A commit is none of those before it. -/
theorem Recorded.ne_next {i : Item} (recorded : Recorded history i) {written : Item}
    (few : history.length + 1 < UInt64.size) : i ≠ written.numbered (history.length + 1) := by
  obtain ⟨n, first, there, -, number⟩ := recorded.cas_toNat (Nat.lt_of_succ_lt few)
  obtain ⟨inside, -⟩ := List.getElem?_eq_some_iff.1 there
  rintro rfl
  have next : (written.numbered (history.length + 1)).cas.toNat = history.length + 1 := UInt64.toNat_ofNat_of_lt' few
  omega

/-- A store has drawn one CAS value for each commit of a history, and holds none but its items. -/
structure Numbers (history : List Item) (s : Store) : Prop where
  issued : s.issued = history.length
  held : ∀ key item, s.view key = some item → Recorded history item

variable {s : Store} {now : Int64} {plan : Plan α} {r : Except StoreError α × Store}

/-- What a key holds after a step it held before, or the step has committed it. -/
theorem Follows.view (follows : Follows s now plan r) {key : Key} {item : Item} (shown : r.2.view key = some item) :
    s.view key = some item ∨ ∃ written, plan.commit? r.1 = some written ∧ item = s.committed written := by
  have back {t : Store} (purges : s.Purges now t) {other : Key} (there : t.view other = some item) :
      s.view other = some item := by
    rcases purges.view other with same | ⟨gone, -⟩
    · exact same.symm.trans there
    · rw [gone] at there
      cases there
  cases follows with
  | told purges | refused _ purges => exact .inl (back purges shown)
  | @wrote entry answer t u _ purges _ stores =>
    have number : t.committed entry = s.committed entry := by rw [Store.committed, purges.stays.issued, Store.committed]
    by_cases here : key = entry.key
    · subst here
      rcases stores.here with there | ⟨-, gone⟩
      · exact .inr ⟨entry, rfl, by rw [← number, Option.some.inj (there.symm.trans shown)]⟩
      · rw [show u.view entry.key = none from gone] at shown
        cases shown
    · rcases stores.elsewhere key here with same | ⟨gone, -⟩
      · exact .inl (back purges (same.symm.trans shown))
      · rw [show u.view key = none from gone] at shown
        cases shown
  | @dropped taken answer t u purges _ _ view =>
    rw [show u.view key = _ from view key] at shown
    split at shown
    · cases shown
    · exact .inl (back purges shown)
  | emptied _ _ empty =>
    rw [empty] at shown
    cases shown

/-- A committed item lies under its key. Only where no item at all may be kept is it evicted at once. -/
theorem Follows.committed (follows : Follows s now plan r) {written : Item}
    (commits : plan.commit? r.1 = some written) :
    r.2.view written.key = some (s.committed written) ∨ s.capacity = 0 ∧ r.2.view written.key = none := by
  cases follows with
  | told _ | refused _ _ | dropped _ _ _ _ | emptied _ _ _ => cases commits
  | wrote _ purges _ stores =>
    cases commits
    rw [Store.committed, ← purges.stays.issued, ← purges.stays.capacity]
    exact stores.here

/-- A step draws a CAS value if it commits an item, and otherwise none. -/
theorem Follows.issued (follows : Follows s now plan r) :
    r.2.issued = s.issued + (plan.commit? r.1).toList.length := by
  cases follows with
  | told purges | refused _ purges => exact purges.stays.issued
  | wrote _ purges _ stores => exact stores.issued.trans (congrArg (· + 1) purges.stays.issued)
  | dropped purges _ stays _ => exact stays.issued.trans purges.stays.issued
  | emptied _ stays _ => exact stays.issued

theorem Numbers.follows (numbers : Numbers history s) (follows : Follows s now plan r) :
    Numbers (history ++ (plan.commit? r.1).toList) r.2 where
  issued := by rw [follows.issued, numbers.issued, List.length_append]
  held key item shown := by
    rcases follows.view shown with before | ⟨written, commits, rfl⟩
    · exact (numbers.held key item before).append _
    · rw [commits, Store.committed, numbers.issued]
      exact recorded_last history written

end Numbers

/-- A plan commits an item under the key that clients are told of, and where they are told of none it commits none. -/
theorem Operation.Planned.key_of_commit? {op : Operation} {plan : Plan Reply} (planned : op.Planned plan)
    (refusal? : Item → Option StoreError) :
    (plan.commit? (plan.reply refusal?)).map (·.key) = op.written? (plan.reply refusal?) := by
  cases planned with
  | told unwritten _ => exact unwritten.symm
  | @written item answer written =>
    rw [Plan.reply]
    cases refusal? item with
    | some e => exact (op.written?_error e).symm
    | none => exact written.symm
  | dropped deletes none_held =>
    subst deletes
    exact (if_neg none_held).symm
  | emptied empties => rcases empties with rfl | rfl <;> rfl

section Run

variable {c : Cache} {history : List Item}

theorem numbers_perform (sound : c.store.Sound) (numbers : Numbers history c.store) (now : Int64) (op : Operation)
    (short : (op.plan now (c.live? now)).Describable c.store) (few : (c.perform now op).2.store.drawn < UInt64.size) :
    Numbers (history ++ (c.commit? now op).toList) (c.perform now op).2.store :=
  numbers.follows (follows sound op short few)

theorem numbers_run {ops : List (Int64 × Operation)} (sound : c.store.Sound) (numbers : Numbers history c.store)
    (short : c.Describable ops) (few : (c.run ops).store.drawn < UInt64.size) :
    Numbers (history ++ c.commits ops) (c.run ops).store := by
  induction ops generalizing c history with
  | nil =>
    rw [commits, List.append_nil]
    exact numbers
  | cons first later ih =>
    obtain ⟨now, op⟩ := first
    have fewer := Nat.lt_of_le_of_lt (draws_run (c.perform now op).2 later).1 few
    rw [commits, ← List.append_assoc]
    exact ih (performs sound op short.1 fewer).sound (numbers_perform sound numbers now op short.1 fewer) short.2 few

theorem numbers_new (s : StorageSettings) (started : Int64) : Numbers [] (new s started).store where
  issued := Store.issued_new s
  held key item shown := by
    rw [show (new s started).store.view key = none from Store.view_new s key] at shown
    cases shown

theorem length_commit?_le (c : Cache) (now : Int64) (op : Operation) : (c.commit? now op).toList.length ≤ 1 := by
  cases c.commit? now op with
  | none => exact Nat.zero_le 1
  | some written => exact Nat.le_refl 1

theorem length_commits_le (c : Cache) (ops : List (Int64 × Operation)) : (c.commits ops).length ≤ ops.length := by
  induction ops generalizing c with
  | nil => exact Nat.le_refl 0
  | cons first later ih =>
    have rest := ih (c.perform first.1 first.2).2
    have one := c.length_commit?_le first.1 first.2
    rw [commits, List.length_append, List.length_cons]
    omega

end Run

end Cache
end BlockCache

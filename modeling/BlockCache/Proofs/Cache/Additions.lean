import BlockCache.Proofs.Cache.Coherence
import BlockCache.Proofs.Wire.Numerals
import Mathlib.Data.List.DropRight

/-!
# Additions

A counter is an item with a decimal number as its data, which spaces and line ends may follow. Adding to it stops at
both ends of 64 bits and writes the sum without leading zeros; nothing else of the item changes. Data that is no
number is left alone. What was written is a number again, so that adding nothing to it answers the same.
-/

namespace BlockCache

open StoreError (Arises)

theorem Bytes.dropTrailing_append {drop : UInt8 → Bool} (kept : Bytes) {dropped : Bytes}
    (all : ∀ b ∈ dropped, drop b = true) : dropTrailing drop (kept ++ dropped) = dropTrailing drop kept := by
  rw [dropTrailing, List.reverse_append, List.dropWhile_append_of_pos fun b mem => all b (List.mem_reverse.1 mem)]
  rfl

/-- A number ends in a digit. -/
theorem Decimal.Unsigned.last {token : Bytes} {n : Nat} (number : Unsigned token n) (written : token ≠ []) :
    48 ≤ token.getLast written := by
  cases number with
  | bare numeral => exact (numeral.digits _ (List.getLast_mem written)).1
  | plus numeral =>
    rw [List.getLast_cons numeral.written]
    exact (numeral.digits _ (List.getLast_mem numeral.written)).1

namespace Item

/-- The data is a number, which spaces and line ends may follow. -/
def HasNumber (i : Item) (value : UInt64) : Prop :=
  ∃ number padding, i.data = number ++ padding ∧ Decimal.Unsigned number value.toNat ∧ ∀ b ∈ padding, b ∈ [32, 13, 10]

theorem isPadding_iff {b : UInt8} : isPadding b = true ↔ b ∈ [32, 13, 10] := by
  simp [isPadding, or_assoc]

theorem number?_eq_ok_iff {i : Item} {value : UInt64} : i.number? = .ok value ↔ i.HasNumber value := by
  have reads : i.number? = .ok value ↔ Decimal.readUInt64? (Bytes.dropTrailing isPadding i.data) = some value := by
    rw [number?]
    split <;> simp_all
  rw [reads, Decimal.readUInt64?_eq_some]
  constructor
  · intro number
    refine ⟨_, i.data.rtakeWhile isPadding, List.rdropWhile_append_rtakeWhile.symm, number, fun b mem => ?_⟩
    exact isPadding_iff.1 (List.mem_rtakeWhile_imp mem)
  · rintro ⟨token, padding, data, number, all⟩
    have kept : Bytes.dropTrailing isPadding token = token := by
      refine List.rdropWhile_eq_self_iff.2 fun written pads => ?_
      have digit := number.last written
      rw [isPadding_iff] at pads
      generalize token.getLast written = last at digit pads
      simp only [List.mem_cons, List.not_mem_nil, or_false] at pads
      rcases pads with rfl | rfl | rfl <;> exact absurd digit (by decide)
    rwa [data, Bytes.dropTrailing_append token fun b mem => isPadding_iff.2 (all b mem), kept]

/-- The item with a number as its data. -/
def withNumber (i : Item) (n : UInt64) : Item := i.withData (Decimal.digits n.toNat)

/-- Reading undoes writing. -/
theorem hasNumber_of_digits {i : Item} {n : UInt64} (written : i.data = Decimal.digits n.toNat) : i.HasNumber n :=
  ⟨_, [], written.trans (List.append_nil _).symm, .bare (Decimal.numeral_digits _), nofun⟩

theorem add_of_not_number {i : Item} (other : ∀ value, ¬ i.HasNumber value) (delta : Int64) :
    i.add delta = .error .notANumber := by
  have unread : i.number? = .error .notANumber := by
    cases read : i.number? with
    | ok value => exact absurd (number?_eq_ok_iff.1 read) (other value)
    | error e =>
      rw [number?] at read
      split at read <;> cases read
      rfl
  rw [add, unread]

theorem add_of_number {i : Item} {value : UInt64} (number : i.HasNumber value) (delta : Int64) :
    i.add delta = .ok (i.withNumber (addClamped value delta), addClamped value delta) := by
  rw [add, number?_eq_ok_iff.2 number]
  rfl

/-- A number of 64 bits has at most 20 digits, so that no item is long on its account. -/
theorem encodedLength_withNumber_lt (i : Item) (n : UInt64) : (i.withNumber n).encodedLength < UInt32.size := by
  have digits : (i.withNumber n).data.length ≤ 20 :=
    Decimal.length_digits_le (Nat.lt_trans n.toNat_lt (by decide))
  exact Nat.lt_of_le_of_lt (Nat.add_le_add_left digits headerLength) (by decide)

/-- Changing the number changes nothing about when an item is live. -/
theorem isLiveAt_withNumber {i : Item} {now : Int64} (alive : i.isLiveAt now = true) (n : UInt64) (cas : UInt64) :
    ({ i.withNumber n with cas } : Item).isLiveAt now = true := by
  simp only [isLiveAt, isPurgeableAt, Bool.and_eq_true, Bool.not_eq_true', Bool.or_eq_false_iff] at alive ⊢
  exact ⟨⟨alive.1.1, rfl⟩, rfl⟩

/-- Adding to a number stops at both ends of its range. -/
theorem toNat_addClamped (value : UInt64) (delta : Int64) :
    ((addClamped value delta).toNat : Int) = max 0 (min (value.toNat + delta.toInt) (2 ^ 64 - 1)) := by
  have inside := value.toNat_lt
  rw [addClamped, UInt64.size]
  split
  · rename_i upward
    have upward : 0 ≤ delta.toInt := Int64.le_iff_toInt_le.1 upward
    rw [Nat.toUInt64_eq, UInt64.toNat_ofNat']
    omega
  · rename_i downward
    have downward : ¬ 0 ≤ delta.toInt := fun upward => downward (Int64.le_iff_toInt_le.2 upward)
    rw [Nat.toUInt64_eq, UInt64.toNat_ofNat']
    omega

theorem addClamped_zero (value : UInt64) : addClamped value 0 = value := by
  have sum := toNat_addClamped value 0
  have inside := value.toNat_lt
  have zero : Int64.toInt 0 = 0 := rfl
  apply UInt64.toNat_inj.1
  omega

end Item

namespace Cache.Coherent

variable {allowed : Key → Prop} {c : Cache} {now : Int64} {key : Key} {item : Item}

/-- Looking at a live item leaves everything where it is. -/
theorem live_of_live? (coherent : c.Coherent allowed) (alive : c.live? now key = some item) :
    ∃ d, c.live now key = (.ok (some item), d) ∧ d.Coherent allowed ∧
      ∀ other, d.store.view other = c.store.view other := by
  obtain ⟨t, read, kept, same⟩ := Store.Coherent.get coherent key
  obtain ⟨shown, readable⟩ := Option.filter_eq_some_iff.1 alive
  rw [Item.isLiveAt, Bool.and_eq_true, Bool.not_eq_true', Bool.not_eq_true'] at readable
  refine ⟨{ c with store := t }, ?_, kept, same⟩
  rw [Cache.live, read, shown]
  dsimp only
  rw [if_neg (by simp [readable.1]), if_neg (by simp [readable.2])]

/-- Data that is no number is an error, and everything stays where it is. -/
theorem addNumber_of_not_number (coherent : c.Coherent allowed) (alive : c.live? now key = some item)
    (other : ∀ value, ¬ item.HasNumber value) (delta : Int64) :
    ∃ d, c.addNumber now key delta = (.error .notANumber, d) ∧ ∀ other, d.store.view other = c.store.view other := by
  obtain ⟨d, looked, -, same⟩ := coherent.live_of_live? alive
  have pass : addNumberPass now key delta c = (.error .notANumber, d) := by
    rw [addNumberPass, Cache.onLive, looked]
    dsimp only
    rw [Item.add_of_not_number other]
  have settled : c.settle (addNumberPass now key delta) = (.error .notANumber, d) := settle_eq pass
  exact ⟨d, settled, same⟩

/-- Where a live item holds a number, the store refuses the item with the sum, or that is what the key then holds. -/
theorem addNumber_of_live (coherent : c.Coherent allowed) (may : allowed key) (alive : c.live? now key = some item)
    {value : UInt64} (number : item.HasNumber value) (delta : Int64) :
    (∃ e d, c.addNumber now key delta = (.error e, d) ∧ Arises allowed e) ∨
      ∃ d cas, c.addNumber now key delta = (.ok (some (Item.addClamped value delta)), d) ∧ d.Coherent allowed ∧
        d.store.view key = some { item.withNumber (Item.addClamped value delta) with cas } := by
  obtain ⟨d, looked, kept, same⟩ := coherent.live_of_live? alive
  have shown := view_of_live alive
  have keyed : item.key = key := Store.Coherent.key_of_view coherent shown
  have held : d.store.view (item.withNumber (Item.addClamped value delta)).key = some item := by
    rw [same, show (item.withNumber _).key = key from keyed, shown]
  have may : allowed (item.withNumber (Item.addClamped value delta)).key := show allowed item.key from keyed ▸ may
  obtain ⟨steps, swaps, swapped⟩ := Store.Coherent.replace kept item may
  have pass : addNumberPass now key delta c =
      d.swap item (item.withNumber (Item.addClamped value delta)) (some (Item.addClamped value delta)) := by
    rw [addNumberPass, Cache.onLive, looked]
    dsimp only
    rw [Item.add_of_number number]
  rw [Cache.swap] at pass
  -- The item that was looked at is still held, so the swap finds no other.
  rcases replaced : d.store.replace item (item.withNumber (Item.addClamped value delta)) with ⟨e | _ | _, t⟩
  all_goals rw [replaced] at pass steps swaps swapped
  · have settled : c.settle (addNumberPass now key delta) = (.error e, { d with store := t }) := settle_eq pass
    exact .inl ⟨e, _, settled, steps.arises e rfl⟩
  · exact absurd rfl (swaps rfl held)
  · have settled : c.settle (addNumberPass now key delta) = (.ok _, { d with store := t }) := settle_eq pass
    have there := swapped rfl
    rw [show (item.withNumber _).key = key from keyed] at there
    exact .inr ⟨_, _, settled, steps.kept, there⟩

end Cache.Coherent

namespace Cache

/-- An arena of any size takes a number. -/
theorem describable_addNumber (s : Store) (delta : Int64) (live : Option Item) :
    (Plan.addNumber delta live).Describable s := by
  intro updated writes
  cases live with
  | none => cases writes
  | some present =>
    rw [Plan.addNumber, Option.elim_some, Item.add] at writes
    cases read : present.number? with
    | error e =>
      rw [read] at writes
      cases writes
    | ok value =>
      rw [read] at writes
      obtain rfl := Option.some.inj writes
      exact s.describes_of_short (Item.encodedLength_withNumber_lt present _)

/-- An addition answers the sum, or that it does not fit. -/
theorem addNumber_answer {c : Cache} (sound : c.store.Sound) {now : Int64} {key : Key} {item : Item}
    (alive : c.live? now key = some item) {value : UInt64} (number : item.HasNumber value) (delta : Int64)
    (few : (c.addNumber now key delta).2.store.drawn < UInt64.size) :
    (c.addNumber now key delta).1 =
      Store.attempt (c.store.refusal? (item.withNumber (Item.addClamped value delta)))
        (some (Item.addClamped value delta)) := by
  have follows := (addNumber_follows sound now key delta (describable_addNumber _ delta _) few).reply
  rw [alive, Plan.addNumber, Option.elim_some, Item.add_of_number number] at follows
  exact follows

/-- How an addition comes out that makes `sum`, where the store refuses the item with the sum or does not. Arenas may be
of any size; `described` says that nothing of 4 GiB or more has been written into one so far. -/
structure Attempts (described : Prop) (refusal : Option StoreError) (sum : UInt64) (step : Step (Option UInt64)) :
    Prop where
  /-- It answers the sum, or the store fails. -/
  answers : step.1 = .ok (some sum) ∨ ∃ e, step.1 = .error e ∧ Arises (fun _ => True) e
  /-- It fails if the store refuses the item, and for no other reason while fewer than 2^64 stamps are drawn. -/
  fails : described → step.2.store.drawn < 2 ^ 64 → step.1 = Store.attempt refusal (some sum)

/-- What adding `delta` to the number of a live item comes to, if the sum is `sum`. -/
structure Adds (described : Prop) (c : Cache) (now : Int64) (key : Key) (item : Item) (delta : Int64) (sum : UInt64) :
    Prop where
  attempts : Attempts described (c.store.refusal? (item.withNumber sum)) sum (c.addNumber now key delta)
  /-- With the answer the item has the sum as its data, without leading zeros, and is otherwise as it was. -/
  stores : (c.addNumber now key delta).1 = .ok (some sum) → ∃ stored,
    (c.addNumber now key delta).2.live? now key = some stored ∧ Decimal.Canonical stored.data sum.toNat ∧
      stored.key = key ∧ stored.flags = item.flags ∧ stored.expire = item.expire ∧ stored.storedAt = item.storedAt
  /-- As long as it can be read, adding nothing to it answers the sum again. -/
  again : (c.addNumber now key delta).1 = .ok (some sum) →
    ∀ later, ((c.addNumber now key delta).2.live? later key).isSome →
      Attempts described none sum ((c.addNumber now key delta).2.addNumber later key 0)

section Reached

variable {settings : StorageSettings} {started : Int64} {earlier : List (Int64 × Operation)} {now : Int64} {key : Key}
  {item : Item}

/-- In a state that operations lead to, an addition is an attempt to store the sum. -/
theorem attempts_addNumber (alive : ((new settings started).run earlier).live? now key = some item) {value : UInt64}
    (number : item.HasNumber value) (delta : Int64) :
    let c := (new settings started).run earlier
    Attempts ((new settings started).Describable earlier) (c.store.refusal? (item.withNumber (Item.addClamped value delta)))
      (Item.addClamped value delta) (c.addNumber now key delta) := by
  intro c
  constructor
  · rcases (coherent_run settings started earlier).addNumber_of_live trivial alive number delta with
      ⟨e, d, failed, arises⟩ | ⟨d, cas, added, -⟩
    · exact .inr ⟨e, by rw [failed], arises⟩
    · exact .inl (by rw [added])
  · intro described few
    have before := Nat.lt_of_le_of_lt (c.draws_perform now (.addNumber key delta)).1 few
    exact addNumber_answer (sound_run (.new settings) described before) alive number delta few

/-- Adding nothing to a number that was written is an attempt to store the bytes that are there. -/
theorem attempts_addNothing {sum : UInt64} {later : Int64} (written : item.data = Decimal.digits sum.toNat)
    (shown : ((new settings started).run earlier).store.view key = some item)
    (alive : (((new settings started).run earlier).live? later key).isSome) :
    Attempts ((new settings started).Describable earlier) none sum
      (((new settings started).run earlier).addNumber later key 0) := by
  obtain ⟨same, alive⟩ := Option.isSome_iff_exists.1 alive
  obtain rfl := Option.some.inj (shown.symm.trans (view_of_live alive))
  have attempts := attempts_addNumber alive (Item.hasNumber_of_digits written) 0
  rw [Item.addClamped_zero] at attempts
  refine ⟨attempts.answers, fun described few => ?_⟩
  have before := Nat.lt_of_le_of_lt (draws_perform _ later (.addNumber key 0)).1 few
  have sound : ((new settings started).run earlier).store.Sound := sound_run (.new settings) described before
  obtain rfl := sound.key_of_view shown
  have fits : Store.refusal? _ (item.withNumber sum) = none :=
    sound.refusal?_of_view shown rfl (congrArg List.length written.symm)
  rw [attempts.fails described few, fits]

theorem adds_of_number (alive : ((new settings started).run earlier).live? now key = some item) {value : UInt64}
    (number : item.HasNumber value) (delta : Int64) :
    Adds ((new settings started).Describable earlier) ((new settings started).run earlier) now key item delta
      (Item.addClamped value delta) := by
  have coherent := coherent_run settings started earlier
  have keyed := Store.Coherent.key_of_view coherent (view_of_live alive)
  -- The state after the addition is one that operations lead to as well.
  have next := run_concat (new settings started) earlier now (.addNumber key delta)
  have after : ((new settings started).run (earlier ++ [(now, .addNumber key delta)])).store =
      (((new settings started).run earlier).addNumber now key delta).2.store := congrArg store next
  rcases coherent.addNumber_of_live trivial alive number delta with
    ⟨e, d, failed, -⟩ | ⟨d, cas, added, -, there⟩
  · refine ⟨attempts_addNumber alive number delta, fun answered => ?_, fun answered => ?_⟩
    all_goals
      rw [failed] at answered
      cases answered
  · have readable := Item.isLiveAt_withNumber (Option.filter_eq_some_iff.1 alive).2 (Item.addClamped value delta) cas
    rw [added] at after
    refine ⟨attempts_addNumber alive number delta, fun _ => ?_, fun _ later live => ?_⟩
    · rw [added]
      exact ⟨_, (live?_of_some there now).trans (if_pos readable), Decimal.canonical_digits _, keyed, rfl, rfl, rfl⟩
    · have reached : ((new settings started).run (earlier ++ [(now, .addNumber key delta)])) =
          (((new settings started).run earlier).addNumber now key delta).2 := next
      rw [← reached] at live ⊢
      obtain ⟨answers, fails⟩ := attempts_addNothing (by rfl) (after ▸ there) live
      refine ⟨answers, fun described => fails ((describable_append _ _ _).2 ⟨described, ?_, trivial⟩)⟩
      exact Plan.describable_map.2 (describable_addNumber _ delta _)

end Reached

/-- In every state that operations lead to, adding to a live item finds the number that its data write, if they write
one, and stores the sum of both within 64 bits; other data are left alone. Every number is written so that it is read
back. -/
theorem addNumber_exact (settings : StorageSettings) (started : Int64) (earlier : List (Int64 × Operation))
    (now : Int64) (key : Key) (item : Item) (alive : ((new settings started).run earlier).live? now key = some item)
    (delta : Int64) :
    let c := (new settings started).run earlier
    ((∀ value, ¬ item.HasNumber value) → (c.addNumber now key delta).1 = .error .notANumber ∧
      ∀ other, (c.addNumber now key delta).2.store.view other = c.store.view other) ∧
    (∀ value, item.HasNumber value → ∃ sum : UInt64,
      (sum.toNat : Int) = max 0 (min (value.toNat + delta.toInt) (2 ^ 64 - 1)) ∧
      Adds ((new settings started).Describable earlier) c now key item delta sum) ∧
    ∀ n, (item.withNumber n).number? = .ok n := by
  intro c
  refine ⟨fun other => ?_, fun value number => ?_, fun n => ?_⟩
  · obtain ⟨d, refused, same⟩ := (coherent_run settings started earlier).addNumber_of_not_number alive other delta
    rw [refused]
    exact ⟨rfl, same⟩
  · exact ⟨_, Item.toNat_addClamped value delta, adds_of_number alive number delta⟩
  · exact Item.number?_eq_ok_iff.2 (Item.hasNumber_of_digits rfl)

/-- A number with a sign, leading zeros and a line end after it is raised up to the largest one. -/
theorem addNumber_exact_largest :
    let settings : StorageSettings :=
      { partitions := 1, bucketsPerPartition := 1, blockSize := 1, maxBytes := 200, ceilingBytes := 0 }
    let item : Item := { key := ⟨[107]⟩, flags := 7, data := Bytes.ofString "+0018446744073709551610 \r\n", storedAt := 5 }
    let c := (new settings 0).run [(5, .set item)]
    c.live? 6 ⟨[107]⟩ = some { item with cas := 1 } ∧
      ∃ sum : UInt64, sum.toNat = 2 ^ 64 - 1 ∧
        Adds ((new settings 0).Describable [(5, .set item)]) c 6 ⟨[107]⟩ { item with cas := 1 } 100 sum := by
  intro settings item c
  have alive : c.live? 6 ⟨[107]⟩ = some { item with cas := 1 } := by decide +kernel
  have number : Item.HasNumber { item with cas := 1 } 18446744073709551610 :=
    Item.number?_eq_ok_iff.1 (by decide +kernel)
  obtain ⟨sum, clamped, adds⟩ := (addNumber_exact settings 0 [(5, .set item)] 6 ⟨[107]⟩ _ alive 100).2.1 _ number
  refine ⟨alive, sum, ?_, adds⟩
  have value : UInt64.toNat 18446744073709551610 = 18446744073709551610 := rfl
  have delta : Int64.toInt 100 = 100 := rfl
  omega

end Cache

end BlockCache

import BlockCache.Proofs.Cache.Additions
import BlockCache.Proofs.Service.Served

/-!
# Counting

A counter is an item with a decimal number as its data. The number that a client adds or takes away is cut to
63 bits on its way, and the sum stops at both ends of 64 bits. The store may refuse the item with the new number
like any other, and otherwise a read gets it.
-/

namespace BlockCache

open StoreError (Arises)

namespace Item

theorem toInt_cutDelta (delta : UInt64) : (Service.cutDelta delta).toInt = min delta.toNat (2 ^ 63 - 1) := by
  rw [Service.cutDelta, Int64.toInt_ofNat_of_lt (by omega)]
  rfl

theorem toInt_neg_cutDelta (delta : UInt64) : (-Service.cutDelta delta).toInt = -(min delta.toNat (2 ^ 63 - 1) : Nat) := by
  rw [← Int64.ofInt_toInt (Service.cutDelta delta), Int64.neg_ofInt, toInt_cutDelta,
    Int64.toInt_ofInt_of_le (by omega) (by omega)]

end Item

namespace Cache.Coherent

variable {allowed : Key → Prop} {c : Cache} {now : Int64} {key : Key} {item : Item}

theorem get_of_live (coherent : c.Coherent allowed) (alive : c.live? now key = some item) :
    ∃ d, c.get now [key] = (.ok [item], d) := by
  obtain ⟨d, looked, -⟩ := coherent.live_of_live? alive
  refine ⟨d.countHit, ?_⟩
  rw [Cache.get, Cache.getFrom, looked]
  rfl

end Cache.Coherent

namespace Service

/-- What a service does that is asked to change the number of a live item to `n`. -/
structure Counts (settings : StorageSettings) (s : Service) (request : Request) (item : Item) (n : UInt64) : Prop where
  /-- It answers the number, or that the store failed. -/
  answers : (s.execute request).1 = [.number n] ∨ ∃ text, (s.execute request).1 = [.serverError text]
  /-- With the answer the number is the data of the item, and a read gets it. -/
  stores : (s.execute request).1 = [.number n] → ∃ cas,
    (s.execute request).2.cache.store.view item.key = some { item.withNumber n with cas } ∧
      ∀ withCas, ((s.execute request).2.execute (.get [item.key] withCas)).1 =
        [Item.reply withCas { item.withNumber n with cas }, .finish]
  /-- The store fails if there is no room for the item with the number, and for no other reason while arenas are
  smaller than 4 GiB and fewer than 2^64 stamps are drawn. -/
  fails : (settings.backend = .block → settings.partitionBytes < 2 ^ 32) →
    (s.execute request).2.cache.store.drawn < 2 ^ 64 →
    (s.execute request).1 = if (s.cache.store.refusal? (item.withNumber n)).isSome
      then [.serverError "out of memory storing object"] else [.number n]

theorem storeFault_of_arises {allowed : Key → Prop} (s : Service) {e : StoreError} (arises : Arises allowed e) :
    ∃ text, (s.storeFault e).1 = [.serverError text] := by
  cases arises <;> exact ⟨_, rfl⟩

/-- An addition answers the sum, or that it does not fit. -/
theorem Served.addNumber_answer {settings : StorageSettings} {started : Int64} {s : Service}
    (served : s.Served settings started) (small : settings.backend = .block → settings.partitionBytes < 2 ^ 32)
    {key : Key} {item : Item} (alive : s.cache.live? s.now key = some item) {value : UInt64}
    (number : item.HasNumber value) (delta : Int64)
    (few : (s.cache.addNumber s.now key delta).2.store.drawn < UInt64.size) :
    (s.cache.addNumber s.now key delta).1 =
      Store.attempt (s.cache.store.refusal? (item.withNumber (Item.addClamped value delta)))
        (some (Item.addClamped value delta)) := by
  have before := Nat.lt_of_le_of_lt (s.cache.draws_perform s.now (.addNumber key delta)).1 few
  exact Cache.addNumber_answer (served.sound small before).1 alive number delta few

theorem get_of_live {allowed : Key → Prop} {s : Service} (coherent : s.cache.Coherent allowed) {key : Key} {item : Item}
    (alive : s.cache.live? s.now key = some item) (withCas : Bool) :
    (s.execute (.get [key] withCas)).1 = [item.reply withCas, .finish] := by
  obtain ⟨d, found⟩ := coherent.get_of_live alive
  have executed : s.execute (.get [key] withCas) = (s.counted (.get [key] withCas)).read [key] withCas := rfl
  rw [executed, read, show (s.counted _).cache.get (s.counted _).now [key] = _ from found]
  rfl

/-- An attempt that only lack of room refuses is answered so, or with the number. -/
theorem take_attempt (s : Service) (m : Store) (item : Item) (d : Cache) (n : UInt64) :
    (s.take (Store.attempt (m.refusal? item) (some n), d) (Option.elim · .notFound .number)).1 =
      if (m.refusal? item).isSome then [.serverError "out of memory storing object"] else [.number n] := by
  cases refused : m.refusal? item with
  | none => rfl
  | some refusal =>
    obtain ⟨requested, available, rfl⟩ := Store.outOfSpace_of_refusal? refused
    rfl

/-- A request that adds to a number. -/
theorem Served.counts {settings : StorageSettings} {started : Int64} {s : Service} (served : s.Served settings started)
    {request : Request} {key : Key} {delta : Int64} (asks : ∀ t : Service, t.perform request = t.addNumber key delta)
    {item : Item} (alive : s.cache.live? s.now key = some item) {value : UInt64} (number : item.HasNumber value) :
    s.Counts settings request item (Item.addClamped value delta) := by
  have coherent : s.cache.Coherent fun _ => True := served.coherent fun _ _ => trivial
  have keyed : item.key = key := Store.Coherent.key_of_view coherent (Cache.view_of_live alive)
  have executed : s.execute request =
      (s.counted request).take (s.cache.addNumber s.now key delta) (Option.elim · .notFound .number) := by
    rw [execute_eq, asks, addNumber]
    congr 1
    funext sum
    cases sum <;> rfl
  have fails (small : settings.backend = .block → settings.partitionBytes < 2 ^ 32)
      (few : (s.execute request).2.cache.store.drawn < 2 ^ 64) :
      (s.execute request).1 = if (s.cache.store.refusal? (item.withNumber (Item.addClamped value delta))).isSome
        then [.serverError "out of memory storing object"] else [.number (Item.addClamped value delta)] := by
    rw [executed, cache_take] at few
    have answer := served.addNumber_answer small alive number delta few
    rw [executed, ← Prod.eta (s.cache.addNumber s.now key delta), answer, take_attempt]
  rcases coherent.addNumber_of_live trivial alive number delta with
    ⟨e, d, failed, arises⟩ | ⟨d, cas, added, kept, there⟩
  · rw [failed] at executed
    obtain ⟨text, replied⟩ := storeFault_of_arises { s.counted request with cache := d } arises
    have replies : (s.execute request).1 = [.serverError text] := by rw [executed, ← replied]; rfl
    refine ⟨.inr ⟨text, replies⟩, fun other => ?_, fails⟩
    rw [replies] at other
    cases other
  · rw [added] at executed
    have replies : (s.execute request).1 = [.number (Item.addClamped value delta)] := by rw [executed]; rfl
    have left : (s.execute request).2 = { s.counted request with cache := d } := by rw [executed]; rfl
    rw [← keyed] at there
    refine ⟨.inl replies, fun _ => ?_, fails⟩
    rw [left]
    refine ⟨cas, there, get_of_live kept ?_⟩
    have readable := (Option.filter_eq_some_iff.1 alive).2
    exact (Cache.live?_of_some there _).trans (if_pos (Item.isLiveAt_withNumber readable _ cas))

end Service

namespace Server

/-- In every state that a server comes to, increments and decrements of a number stop at both ends of 64 bits, as long
as they change it by less than 2^63. -/
theorem counts_run {settings : StorageSettings} {started : Int64} {s : Server}
    (new : s.service.cache = Cache.new settings started) (events : List Event) {key : Key} {item : Item}
    (alive : (s.run events).service.cache.live? (s.run events).service.now key = some item) {value : UInt64}
    (number : item.HasNumber value) (delta : UInt64) (noreply : Bool) :
    (∃ n, (s.run events).service.Counts settings (.incr key delta noreply) item n ∧
      (min (value.toNat + delta.toNat) (2 ^ 64 - 1) < value.toNat + 2 ^ 63 →
        n.toNat = min (value.toNat + delta.toNat) (2 ^ 64 - 1))) ∧
    ∃ n, (s.run events).service.Counts settings (.decr key delta noreply) item n ∧
      (value.toNat < value.toNat - delta.toNat + 2 ^ 63 → n.toNat = value.toNat - delta.toNat) := by
  have served : (s.run events).service.Served settings started := served_run ⟨[], nofun, new⟩ events
  have inside := value.toNat_lt
  refine ⟨⟨_, served.counts (fun _ => rfl) alive number, fun near => ?_⟩,
    _, served.counts (fun _ => rfl) alive number, fun near => ?_⟩
  · have sum := Item.toNat_addClamped value (Service.cutDelta delta)
    rw [Item.toInt_cutDelta] at sum
    omega
  · have difference := Item.toNat_addClamped value (-Service.cutDelta delta)
    rw [Item.toInt_neg_cutDelta] at difference
    omega

/-- A client comes and stores a digit. -/
def storesDigit (digit : UInt8) : List Event :=
  [.connect, .send 0 (Bytes.ofString "set k 0 0 1\r\n" ++ [digit] ++ Bytes.crlf)]

theorem counts_run_five :
    let t := (emptyServer (oneArena 100)).run (storesDigit 53)
    let five : Item := { key := ⟨[107]⟩, data := [53], cas := 1 }
    t.service.cache.live? 0 ⟨[107]⟩ = some five ∧
      (∃ n, t.service.Counts (oneArena 100) (.incr ⟨[107]⟩ 7 false) five n ∧ n.toNat = 12) ∧
      ∃ n, t.service.Counts (oneArena 100) (.decr ⟨[107]⟩ 7 false) five n ∧ n.toNat = 0 := by
  intro t five
  have alive : t.service.cache.live? t.service.now ⟨[107]⟩ = some five := by decide +kernel
  have number : five.HasNumber 5 := ⟨[53], [], rfl, .bare ⟨by decide, by decide +kernel, by decide⟩, nofun⟩
  obtain ⟨⟨sum, added, upper⟩, difference, taken, lower⟩ :=
    counts_run (s := emptyServer (oneArena 100)) rfl (storesDigit 53) alive number 7 false
  exact ⟨by decide +kernel, ⟨sum, added, upper (by decide)⟩, difference, taken, lower (by decide)⟩

/-- A number that grows needs room, which there may not be; and half of the numbers that clients may add are cut. -/
theorem incr_refused_and_cut :
    let full := (emptyServer (oneArena 38)).run (storesDigit 57)
    let zero := (emptyServer (oneArena 100)).run (storesDigit 48)
    (full.service.cache.live? 0 ⟨[107]⟩).map (·.number?.toOption) = some (some 9) ∧
    (full.send 0 (Bytes.ofString "incr k 1\r\n")).1 =
      Reply.render (.serverError "out of memory storing object") ∧
    (zero.service.cache.live? 0 ⟨[107]⟩).map (·.number?.toOption) = some (some 0) ∧
    (zero.send 0 (Bytes.ofString "incr k 18446744073709551615\r\n")).1 = Reply.render (.number 9223372036854775807) := by
  decide +kernel

end Server
end BlockCache

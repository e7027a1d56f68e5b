import BlockCache.Proofs.Cache.Counters
import BlockCache.Proofs.Service.Framing

/-!
# Executions

What is counted about a request that is carried out, by the cache and by the service around it. Each key that it reads
is a hit or a miss, and each hit is an item in the reply. A storing request is counted, and so is the whole value that
it has stored. A verb that fails is counted by the service, unless the client took some data for a number.
-/

namespace BlockCache

/-- One item of the reply to a read. -/
def Reply.isValue : Reply → Bool
  | value .. | valueWithCas .. => true
  | _ => false

/-- Whether the verb brings a whole value, and not data to be added to one. -/
def StoreVerb.isWhole : StoreVerb → Bool
  | append | prepend => false
  | set | add | replace | cas => true

namespace Request

/-- The keys that a request reads. -/
def keys : Request → List Key
  | get keys _ => keys
  | _ => []

def isStoring : Request → Bool
  | store .. => true
  | _ => false

/-- Whether the request brings a whole value to store. -/
def isWhole : Request → Bool
  | store verb .. => verb.isWhole
  | _ => false

/-- The operation that a request asks of the cache. A flush, which has no answer, is left out. -/
def operation? (now : Int64) : Request → Option Cache.Operation
  | get keys _ => some (.get keys)
  | store verb key flags expire data cas _ =>
    some (verb.operation { key, flags, expire, data, storedAt := now } cas)
  | delete key hold _ => some (.delete key hold)
  | incr key delta _ => some (.addNumber key (Service.cutDelta delta))
  | decr key delta _ => some (.addNumber key (-Service.cutDelta delta))
  | flushAll .. | stats _ | version | verbosity _ | quit => none

theorem keys_of_isNoreply {r : Request} (declined : r.isNoreply = true) : r.keys = [] := by
  cases r with
  | get => cases declined
  | _ => rfl

theorem isStoring_of_isWhole {r : Request} (whole : r.isWhole = true) : r.isStoring = true := by
  cases r with
  | store => rfl
  | _ => cases whole

/-- Where nothing is asked of the cache, nothing is read or stored. -/
theorem idle_of_operation? {r : Request} {now : Int64} (asks : r.operation? now = none) :
    r.keys = [] ∧ r.isStoring = false := by
  cases r with
  | get | store | delete | incr | decr => cases asks
  | flushAll | stats | version | verbosity | quit => exact ⟨rfl, rfl⟩

end Request

namespace Cache

namespace Reply

/-- Whether a verb failed, and not because the client took some data for a number. -/
def isFault : Except StoreError Reply → Bool
  | .error .notANumber | .ok _ => false
  | .error _ => true

/-- Whether a verb failed for want of space. -/
def isOutOfSpace : Except StoreError Reply → Bool
  | .error (.outOfSpace ..) => true
  | _ => false

end Reply

theorem isFault_attempt (m : Store) (item : Item) (answer : Reply) :
    Reply.isFault (Store.attempt (m.refusal? item) answer) =
      Reply.isOutOfSpace (Store.attempt (m.refusal? item) answer) := by
  cases refused : m.refusal? item with
  | none => rfl
  | some e =>
    obtain ⟨requested, available, rfl⟩ := Store.outOfSpace_of_refusal? refused
    rfl

/-- Of the answers by the live items, those to attempts alone are faults. -/
theorem isFault_reply (op : Operation) (live : Key → Option Item) (m : Store) :
    Reply.isFault (op.reply live m.refusal?) = Reply.isOutOfSpace (op.reply live m.refusal?) := by
  cases op with
  | get | delete | flushAll | close => rfl
  | set item => exact isFault_attempt m item _
  | add item | replace item | append item | prepend item =>
    rw [Operation.reply]
    cases live item.key <;> first | rfl | exact isFault_attempt m _ _
  | cas item token =>
    rw [Operation.reply]
    cases live item.key with
    | none => rfl
    | some present =>
      dsimp only
      split
      · exact isFault_attempt m item _
      · rfl
  | addNumber key delta =>
    rw [Operation.reply]
    cases live key with
    | none => rfl
    | some present =>
      dsimp only
      cases added : present.add delta with
      | error e =>
        rw [Item.notANumber_of_add added]
        rfl
      | ok sum => exact isFault_attempt m sum.1 _

/-- A verb fails only for want of space. -/
theorem isFault_perform {c : Cache} (sound : c.store.Sound) (small : c.store.Small) {now : Int64} (op : Operation)
    (few : (c.perform now op).2.store.drawn < UInt64.size) :
    Reply.isFault (c.perform now op).1 = Reply.isOutOfSpace (c.perform now op).1 := by
  rw [(performs sound op (fun item _ => small item) few).reply]
  exact isFault_reply op _ c.store

end Cache

/-- A request that was carried out, and the service before it. -/
structure Execution where
  service : Service
  request : Request

namespace Execution

/-- What the cache has answered, whether or not the client wants to know. -/
def outcome? (e : Execution) : Option (Except StoreError Cache.Reply) :=
  (e.request.operation? e.service.now).map fun op => (e.service.cache.perform e.service.now op).1

/-- The replies that are sent. -/
def replies (e : Execution) : List Reply := if e.request.isNoreply then [] else (e.service.execute e.request).1

/-- The items in the replies. -/
def values (e : Execution) : Nat := e.replies.countP Reply.isValue

/-- Whether the request has stored a whole value. -/
def hasStored (e : Execution) : Bool := e.request.isWhole && e.outcome?.any Cache.Reply.isStored

def hasFailed (e : Execution) : Bool := e.outcome?.any Cache.Reply.isFault

def isOutOfSpace (e : Execution) : Bool := e.outcome?.any Cache.Reply.isOutOfSpace

/-- What the cache is to count. -/
def counted (e : Execution) : Counters where
  gets := e.request.keys.length
  sets := e.request.isStoring.toNat
  hits := e.values
  misses := e.request.keys.length - e.values
  totalItems := e.hasStored.toNat

/-- `t` has counted the execution. -/
structure CountedBy (e : Execution) (t : Service) : Prop where
  counters : t.cache.counters = e.service.cache.counters + e.counted
  few : e.values ≤ e.request.keys.length
  getHits : t.metrics.getHits = e.service.metrics.getHits + e.values
  getMisses : t.metrics.getMisses = e.service.metrics.getMisses + (e.request.keys.length - e.values)
  storageErrors : t.metrics.storageErrors = e.service.metrics.storageErrors + e.hasFailed.toNat
  drawn : e.service.cache.store.drawn ≤ t.cache.store.drawn
  /-- As long as the store is sound and small, only the want of space makes a verb fail. -/
  fails : e.service.cache.store.Sound ∧ e.service.cache.store.Small → t.cache.store.drawn < UInt64.size →
    e.hasFailed = e.isOutOfSpace

/-- Only reads are answered with items, and they decline no reply. -/
theorem values_of_le {s : Service} {r : Request} (few : (s.execute r).1.countP Reply.isValue ≤ r.keys.length) :
    values ⟨s, r⟩ = (s.execute r).1.countP Reply.isValue := by
  rw [values, replies]
  split
  · rename_i declined
    rw [Request.keys_of_isNoreply declined] at few
    exact (Nat.eq_zero_of_le_zero few).symm
  · rfl

theorem stores_le (e : Execution) : e.hasStored.toNat ≤ e.request.isStoring.toNat := by
  rw [hasStored]
  cases whole : e.request.isWhole with
  | false => exact Nat.zero_le _
  | true =>
    rw [Request.isStoring_of_isWhole whole]
    exact Bool.toNat_le _

end Execution

/-- What a server counts about a verb, by the answer of its cache. -/
def Metrics.charged (m : Metrics) (op : Cache.Operation) (answer : Except StoreError Cache.Reply) : Metrics :=
  { m with
    getHits := m.getHits + (op.counted answer).hits
    getMisses := m.getMisses + (op.counted answer).misses
    storageErrors := m.storageErrors + (Cache.Reply.isFault answer).toNat }

namespace Service

/-- Nothing has been counted from `s` to `t`. -/
structure Uncounted (s t : Service) : Prop where
  counters : t.cache.counters = s.cache.counters
  getHits : t.metrics.getHits = s.metrics.getHits
  getMisses : t.metrics.getMisses = s.metrics.getMisses
  storageErrors : t.metrics.storageErrors = s.metrics.storageErrors
  drawn : s.cache.store.drawn ≤ t.cache.store.drawn

namespace Uncounted

theorem refl (s : Service) : s.Uncounted s := ⟨rfl, rfl, rfl, rfl, Nat.le_refl _⟩

/-- Emptying a cache leaves its counters alone. -/
theorem flush (s : Service) (delay : Int64) : s.Uncounted (s.flush delay) := by
  unfold Service.flush
  dsimp only
  split
  · exact ⟨rfl, rfl, rfl, rfl, s.cache.store.draws_clear.1⟩
  · exact ⟨rfl, rfl, rfl, rfl, Nat.le_refl _⟩

theorem setClock (s : Service) (clock : Int) : s.Uncounted (s.setClock clock) := by
  unfold Service.setClock
  split
  · exact ⟨rfl, rfl, rfl, rfl, s.cache.store.draws_clear.1⟩
  · exact ⟨rfl, rfl, rfl, rfl, Nat.le_refl _⟩

end Uncounted

/-- What comes of a verb: the service takes over the cache, counts the answer, and replies with the items read. -/
structure Charged (s : Service) (op : Cache.Operation) (step : Cache.Step Cache.Reply) (result : List Reply × Service) :
    Prop where
  after : result.2 = { s with cache := step.2, metrics := s.metrics.charged op step.1 }
  values : result.1.countP Reply.isValue = (op.counted step.1).hits

section Requests

/-! What one request adds to the counters. -/

variable {s : Service} {r : Request} {op : Cache.Operation}

/-- Where a verb reads nothing, its failures are all that is counted, and no item is replied. -/
theorem take_charged (s : Service) (step : Cache.Step α) {reply : α → Reply} {told : α → Cache.Reply}
    (unread : ∀ answer, (op.counted answer).hits = 0 ∧ (op.counted answer).misses = 0)
    (plain : ∀ answer, (reply answer).isValue = false) :
    s.Charged op (step.map (Except.map told) id) (s.take step reply) := by
  rcases step with ⟨e | answer, cache⟩
  · constructor
    · rw [Metrics.charged, (unread _).1, (unread _).2]
      cases e <;> rfl
    · rw [(unread _).1]
      cases e <;> rfl
  · constructor
    · rw [Metrics.charged, (unread _).1, (unread _).2]
      rfl
    · show [reply answer].countP Reply.isValue = _
      rw [(unread _).1, List.countP_singleton, plain]
      rfl

theorem addNumber_charged (s : Service) (key : Key) (delta : Int64) :
    s.Charged (.addNumber key delta) (s.cache.perform s.now (.addNumber key delta)) (s.addNumber key delta) :=
  s.take_charged (s.cache.addNumber s.now key delta) (fun _ => ⟨rfl, rfl⟩) fun sum => by cases sum <;> rfl

theorem isValue_reply (withCas : Bool) (i : Item) : (i.reply withCas).isValue = true := by
  cases withCas <;> rfl

/-- A request that asks something of the cache. -/
theorem perform_charged (asks : r.operation? s.now = some op) :
    s.Charged op (s.cache.perform s.now op) (s.perform r) := by
  cases r with
  | get keys withCas =>
    obtain rfl := Option.some.inj asks
    rw [perform, read, Cache.perform]
    rcases s.cache.get s.now keys with ⟨e | found, cache⟩
    · cases e <;> exact ⟨rfl, rfl⟩
    · have values : found.countP (Reply.isValue ∘ Item.reply withCas) = found.length :=
        List.countP_eq_length.2 fun i _ => isValue_reply withCas i
      refine ⟨rfl, ?_⟩
      show (found.map (Item.reply withCas) ++ [Reply.finish]).countP Reply.isValue = found.length
      rw [List.countP_append, List.countP_map, values]
      rfl
  | store verb key flags expire data cas noreply =>
    obtain rfl := Option.some.inj asks
    let item : Item := { key, flags, expire, data, storedAt := s.now }
    have unread (answer) : ((verb.operation item cas).counted answer).hits = 0 ∧
        ((verb.operation item cas).counted answer).misses = 0 := by
      cases verb <;> exact ⟨rfl, rfl⟩
    let step := verb.step s.cache s.now item cas
    have charged : s.Charged (verb.operation item cas) (step.map (Except.map .store) id)
        (s.take step StoreAnswer.reply) :=
      s.take_charged step unread fun answer => by cases answer <;> rfl
    cases verb <;> exact charged
  | delete key hold noreply =>
    obtain rfl := Option.some.inj asks
    exact s.take_charged (s.cache.delete s.now key hold) (fun _ => ⟨rfl, rfl⟩) fun answer => by cases answer <;> rfl
  | incr key delta noreply =>
    obtain rfl := Option.some.inj asks
    exact s.addNumber_charged key (cutDelta delta)
  | decr key delta noreply =>
    obtain rfl := Option.some.inj asks
    exact s.addNumber_charged key (-cutDelta delta)
  | flushAll | stats | version | verbosity | quit => cases asks

/-- Where a request asks nothing of it, nothing is counted. -/
theorem uncounted_perform (asks : r.operation? s.now = none) :
    s.Uncounted (s.perform r).2 ∧ (s.perform r).1.countP Reply.isValue = 0 := by
  cases r with
  | get | store | delete | incr | decr => cases asks
  | flushAll delay noreply => exact ⟨.flush s delay, rfl⟩
  | stats arg =>
    refine ⟨.refl s, List.countP_eq_zero.2 fun reply mem => ?_⟩
    rcases List.mem_append.1 mem with line | last
    · obtain ⟨_, _, rfl⟩ := List.mem_map.1 line
      exact Bool.false_ne_true
    · rw [List.mem_singleton.1 last]
      exact Bool.false_ne_true
  | version | verbosity | quit => exact ⟨.refl s, rfl⟩

/-- Each key that a request reads is counted once. -/
theorem counted_reads (coherent : s.cache.Coherent fun _ => True) (asks : r.operation? s.now = some op) :
    let added := op.counted (s.cache.perform s.now op).1
    added.gets = r.keys.length ∧ added.misses = r.keys.length - added.hits ∧ added.hits ≤ r.keys.length := by
  cases r with
  | get keys withCas =>
    obtain rfl := Option.some.inj asks
    obtain ⟨found, answer, few⟩ := Cache.get_answers coherent s.now keys
    rw [answer]
    exact ⟨rfl, rfl, few⟩
  | store verb =>
    obtain rfl := Option.some.inj asks
    cases verb <;> exact ⟨rfl, rfl, Nat.le_refl 0⟩
  | delete | incr | decr =>
    obtain rfl := Option.some.inj asks
    exact ⟨rfl, rfl, Nat.le_refl 0⟩
  | flushAll | stats | version | verbosity | quit => cases asks

/-- A storing request is counted once, and once more if it has stored a whole value. -/
theorem counted_stores (asks : r.operation? s.now = some op) (answer : Except StoreError Cache.Reply) :
    (op.counted answer).sets = r.isStoring.toNat ∧
      (op.counted answer).totalItems = (r.isWhole && Cache.Reply.isStored answer).toNat := by
  cases r with
  | get keys withCas =>
    obtain rfl := Option.some.inj asks
    rcases answer with e | found | _ | _ | _ | _ <;> exact ⟨rfl, rfl⟩
  | store verb =>
    obtain rfl := Option.some.inj asks
    cases verb <;> exact ⟨rfl, rfl⟩
  | delete | incr | decr =>
    obtain rfl := Option.some.inj asks
    exact ⟨rfl, rfl⟩
  | flushAll | stats | version | verbosity | quit => cases asks

theorem outcome?_of_operation? {asked : Option Cache.Operation} (asks : r.operation? s.now = asked) :
    Execution.outcome? ⟨s, r⟩ = asked.map fun op => (s.cache.perform s.now op).1 := congrArg (Option.map _) asks

theorem countedBy_of_idle (asks : r.operation? s.now = none) : Execution.CountedBy ⟨s, r⟩ (s.execute r).2 := by
  obtain ⟨uncounted, replied⟩ := uncounted_perform (s := s.counted r) asks
  obtain ⟨unread, unstored⟩ := Request.idle_of_operation? asks
  have outcome : Execution.outcome? ⟨s, r⟩ = none := outcome?_of_operation? asks
  have values : Execution.values ⟨s, r⟩ = 0 :=
    (Execution.values_of_le (replied.trans_le (Nat.zero_le _))).trans replied
  have unwritten : Execution.hasStored ⟨s, r⟩ = false := by
    rw [Execution.hasStored, outcome]
    exact Bool.and_false _
  have counted : Execution.counted ⟨s, r⟩ = {} := by
    rw [Execution.counted, values, unwritten, unread, unstored]
    rfl
  constructor
  · rw [counted]
    exact uncounted.counters
  · rw [values]
    exact Nat.zero_le _
  · rw [values]
    exact uncounted.getHits
  · rw [values, unread]
    exact uncounted.getMisses
  · rw [Execution.hasFailed, outcome]
    exact uncounted.storageErrors
  · exact uncounted.drawn
  · intro _ _
    rw [Execution.hasFailed, Execution.isOutOfSpace, outcome]
    rfl

theorem countedBy_of_operation? (coherent : s.cache.Coherent fun _ => True) (asks : r.operation? s.now = some op) :
    Execution.CountedBy ⟨s, r⟩ (s.execute r).2 := by
  obtain ⟨after, replied⟩ := perform_charged (s := s.counted r) asks
  obtain ⟨gets, misses, few⟩ := counted_reads coherent asks
  obtain ⟨sets, totalItems⟩ := counted_stores asks (s.cache.perform s.now op).1
  -- Counting the request changes neither the cache nor the time.
  have answered : (s.counted r).cache.perform (s.counted r).now op = s.cache.perform s.now op := rfl
  rw [answered] at after replied
  have outcome : Execution.outcome? ⟨s, r⟩ = some (s.cache.perform s.now op).1 := outcome?_of_operation? asks
  have values : Execution.values ⟨s, r⟩ = (op.counted (s.cache.perform s.now op).1).hits :=
    (Execution.values_of_le (replied.trans_le few)).trans replied
  have counted : op.counted (s.cache.perform s.now op).1 = Execution.counted ⟨s, r⟩ := by
    rw [Execution.counted, values, Execution.hasStored, outcome]
    dsimp only [Option.any_some]
    rw [← totalItems, ← sets, ← misses, ← gets]
  rw [execute_eq, after]
  constructor
  · exact (Cache.counters_perform coherent s.now op).trans (congrArg (s.cache.counters + ·) counted)
  · exact values.trans_le few
  · rw [values]
    rfl
  · rw [values, ← misses]
    rfl
  · rw [Execution.hasFailed, outcome]
    rfl
  · exact (s.cache.draws_perform s.now op).1
  · rintro ⟨sound, small⟩ fewer
    rw [Execution.hasFailed, Execution.isOutOfSpace, outcome]
    exact Cache.isFault_perform sound small op fewer

/-- Every request is counted as it comes out. -/
theorem countedBy_execute (coherent : s.cache.Coherent fun _ => True) (r : Request) :
    Execution.CountedBy ⟨s, r⟩ (s.execute r).2 := by
  cases asks : r.operation? s.now with
  | none => exact countedBy_of_idle asks
  | some op => exact countedBy_of_operation? coherent asks

end Requests

end Service
end BlockCache

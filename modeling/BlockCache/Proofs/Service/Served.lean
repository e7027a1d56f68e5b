import BlockCache.Proofs.Cache.Coherence
import BlockCache.Proofs.Wire.Grammar
import BlockCache.Server.Connections

/-!
# What a server has done to its cache

Clients come and go, their bytes arrive in chunks, time passes, and in the end the server is stopped.
All that any of it does to the cache is operations, and none writes under a key that may not be sent.
-/

namespace BlockCache

/-- The keys of a request may be sent. -/
def Request.Sendable : Request → Prop
  | get keys _ => ∀ key ∈ keys, key.Sendable
  | store _ key _ _ _ _ _ | delete key _ _ | incr key _ _ | decr key _ _ => key.Sendable
  | _ => True

theorem Reading.LineForm.sendable {tokens : List Bytes} {request : Request} (form : LineForm tokens (.whole request)) :
    request.Sendable := by
  cases form with
  | get _ _ valid | gets _ _ valid => exact valid
  | delete _ valid _ | incr _ valid _ _ | decr _ valid _ _ => exact valid
  | flushAll | stats | version | verbosity | quit => trivial
  | store _ form => cases form

theorem Reading.LineForm.sendable_block {tokens : List Bytes} {length : Nat} {withData : Bytes → Request}
    (form : LineForm tokens (.block length withData)) (data : Bytes) : (withData data).Sendable := by
  cases form with
  | store _ form =>
    cases form with
    | mk valid => exact valid

/-- What is read asks for keys that may be sent. -/
theorem Reading.sendable {arrived : Bytes} {request : Request} {consumed : Nat}
    (read : ofBytes arrived = .complete request consumed) : request.Sendable := by
  have form := (ofBytes_eq_complete_iff.1 read).2
  generalize arrived.take consumed = wire at form
  cases form with
  | line _ form => exact form.sendable
  | block _ form _ => exact form.sendable_block _

/-- The operation that a storing request asks for. -/
def StoreVerb.operation (verb : StoreVerb) (item : Item) (token : UInt64) : Cache.Operation :=
  match verb with
  | set => .set item
  | add => .add item
  | replace => .replace item
  | append => .append item
  | prepend => .prepend item
  | cas => .cas item token

namespace Service

/-- The service as it carries out a request. -/
def counted (s : Service) (r : Request) : Service :=
  { s with metrics := { s.metrics.recordCommand r.name with timed := (s.metrics.recordCommand r.name).timed + 1 } }

theorem execute_eq (s : Service) (r : Request) : s.execute r = (s.counted r).perform r := rfl

/-- The cache of a service is what operations on a new cache have led to. All else that a service knows may be
anything. -/
def Served (settings : StorageSettings) (started : Int64) (s : Service) : Prop :=
  ∃ earlier : List (Int64 × Cache.Operation), (∀ o ∈ earlier, o.2.Allowed Key.Sendable) ∧
    s.cache = (Cache.new settings started).run earlier

theorem cache_storeFault (s : Service) (e : StoreError) : (s.storeFault e).2.cache = s.cache := by
  cases e <;> rfl

theorem cache_take (s : Service) (step : Cache.Step α) (reply : α → Reply) : (s.take step reply).2.cache = step.2 := by
  rcases step with ⟨e | answer, cache⟩
  · exact cache_storeFault _ e
  · rfl

theorem cache_read (s : Service) (keys : List Key) (withCas : Bool) :
    (s.read keys withCas).2.cache = (s.cache.get s.now keys).2 := by
  rw [read]
  rcases s.cache.get s.now keys with ⟨e | found, cache⟩
  · exact cache_storeFault _ e
  · rfl

namespace Served

variable {settings : StorageSettings} {started : Int64} {s t : Service}

theorem coherent {allowed : Key → Prop} (served : s.Served settings started)
    (also : ∀ key : Key, key.Sendable → allowed key) : s.cache.Coherent allowed := by
  obtain ⟨earlier, sendable, cache⟩ := served
  rw [cache]
  exact (Cache.Coherent.new settings started).run fun o mem => (sendable o mem).mono also

theorem sound (served : s.Served settings started)
    (small : settings.backend = .block → settings.partitionBytes < 2 ^ 32) (few : s.cache.store.drawn < UInt64.size) :
    s.cache.store.Sound ∧ s.cache.store.Small := by
  obtain ⟨earlier, -, cache⟩ := served
  rw [cache] at few ⊢
  have start : (Cache.new settings started).store.Sound := .new settings
  have short := Cache.describable_of_small start (Store.small_new small) few
  exact ⟨Cache.sound_run start short few,
    fun item => Cache.shrinks_run start short few item (Store.small_new small item)⟩

theorem congr (served : s.Served settings started) (same : t.cache = s.cache) : t.Served settings started := by
  obtain ⟨earlier, allowed, cache⟩ := served
  exact ⟨earlier, allowed, same.trans cache⟩

theorem operation (served : s.Served settings started) (now : Int64) (op : Cache.Operation)
    (may : op.Allowed Key.Sendable) (step : t.cache = (s.cache.perform now op).2) : t.Served settings started := by
  obtain ⟨earlier, allowed, cache⟩ := served
  refine ⟨earlier ++ [(now, op)], fun o mem => ?_, by rw [step, cache, Cache.run_concat]⟩
  rcases List.mem_append.1 mem with before | last
  · exact allowed o before
  · rw [List.mem_singleton.1 last]
    exact may

theorem flush (served : s.Served settings started) (delay : Int64) : (s.flush delay).Served settings started := by
  unfold Service.flush
  dsimp only
  split
  · exact served.operation s.now .flushAll trivial rfl
  · exact served.congr rfl

/-- A request is at most one operation on the cache. -/
theorem perform (served : s.Served settings started) {r : Request} (sendable : r.Sendable) :
    (s.perform r).2.Served settings started := by
  cases r with
  | get keys withCas => exact served.operation s.now (.get keys) trivial (cache_read s keys withCas)
  | store verb key flags expire data cas noreply =>
    refine served.operation s.now (verb.operation { key, flags, expire, data, storedAt := s.now } cas) ?_ ?_
    · cases verb <;> exact sendable
    · refine (cache_take s _ _).trans ?_
      cases verb <;> rfl
  | delete key hold noreply => exact served.operation s.now (.delete key hold) sendable (cache_take s _ _)
  | incr key delta noreply => exact served.operation s.now (.addNumber key (cutDelta delta)) sendable (cache_take s _ _)
  | decr key delta noreply => exact served.operation s.now (.addNumber key (-cutDelta delta)) sendable (cache_take s _ _)
  | flushAll delay noreply => exact served.flush delay
  | stats | version | verbosity | quit => exact served

theorem execute (served : s.Served settings started) {r : Request} (sendable : r.Sendable) :
    (s.execute r).2.Served settings started :=
  perform (s := s.counted r) (served.congr rfl) sendable

theorem setClock (served : s.Served settings started) (clock : Int) : (s.setClock clock).Served settings started := by
  by_cases due : s.flushes.any (· ≤ clock)
  · exact served.operation s.now .flushAll trivial (if_pos due)
  · exact served.congr (if_neg due)

/-- Whatever bytes have arrived, processing them executes requests and nothing else. -/
theorem processAfter (served : s.Served settings started) (answers : List (List Reply)) (session : Session) :
    (session.processAfter answers s).service.Served settings started := by
  fun_induction Session.processAfter answers s session with
  | case1 => exact served
  | case2 => exact served
  | case3 => rename_i ih; exact ih (served.congr rfl)
  | case4 => exact served
  | case5 =>
    rename_i read _ _ _ executed ih
    have after := served.execute (Reading.sendable read)
    rw [executed] at after
    exact ih after

theorem receive (served : s.Served settings started) (session : Session) (chunk : Bytes) :
    (session.receive s chunk).service.Served settings started := by
  refine congr (processAfter ?_ [] _) rfl
  exact served.congr rfl

end Served
end Service

namespace Server

/-- What happens to a server. -/
inductive Event where
  | connect
  | hangUp (client : Nat)
  | send (client : Nat) (chunk : Bytes)
  | advance (seconds : Int)
  | stop

def handle (s : Server) : Event → Server
  | .connect => s.connect.2
  | .hangUp client => s.hangUp client
  | .send client chunk => (s.send client chunk).2
  | .advance seconds => s.advance seconds
  | .stop => s.stop

/-- Events one after the other. -/
def run (s : Server) (events : List Event) : Server := events.foldl handle s

variable {settings : StorageSettings} {started : Int64} {s : Server}

theorem served_retain (served : s.service.Served settings started) (keep : Nat → Connection → Bool) :
    (s.retain keep).service.Served settings started := served.congr rfl

theorem served_handle (served : s.service.Served settings started) (event : Event) :
    (s.handle event).service.Served settings started := by
  cases event with
  | connect =>
    refine served.congr ?_
    rw [handle, connect]
    repeat' split
    all_goals rfl
  | hangUp client => exact served_retain served fun number _ => number != client
  | send client chunk =>
    rw [handle, send]
    split
    · exact served
    · rename_i connection _
      split
      · exact served
      · have received := served.receive connection.session chunk
        dsimp only
        split
        · refine received.congr ?_
          rfl
        · exact received
  | advance seconds => exact (served.setClock _).congr rfl
  | stop => exact served.congr rfl

/-- In every state of a server, its cache is what operations have led to. -/
theorem served_run (served : s.service.Served settings started) (events : List Event) :
    (s.run events).service.Served settings started := by
  induction events generalizing s with
  | nil => exact served
  | cons event events ih => exact ih (served_handle served event)

/-- Settings with one arena, of single bytes. -/
def oneArena (arenaBytes : Nat) : StorageSettings :=
  { partitions := 1, bucketsPerPartition := 1, blockSize := 1, maxBytes := arenaBytes, ceilingBytes := 0 }

def emptyServer (settings : StorageSettings) : Server :=
  { service := { cache := .new settings 0, clock := 0, processId := 1 }, maxConnections := 1, timeout := 0 }

end Server
end BlockCache

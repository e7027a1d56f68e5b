import BlockCache.Proofs.Service.Executions

/-!
# Statistics

The counters of the cache and those of the server are kept in different places, and both can be told from the requests
that were executed and the replies to them. What else happens to a server, be it that clients come and go, that lines
are no requests, that time passes or that flushes fall due, counts nothing.
-/

namespace BlockCache

namespace Service

/-- The counters of the cache and those of the service agree with what was executed. -/
structure Agrees (settings : StorageSettings) (s : Service) (run : List Execution) : Prop where
  /-- Each key asked for is a hit or a miss. -/
  reads : s.cache.counters.gets = s.cache.counters.hits + s.cache.counters.misses
  gets : s.cache.counters.gets = (run.map fun e => e.request.keys.length).sum
  hits : s.cache.counters.hits = (run.map Execution.values).sum
  getHits : s.metrics.getHits = s.cache.counters.hits
  getMisses : s.metrics.getMisses = s.cache.counters.misses
  sets : s.cache.counters.sets = run.countP fun e => e.request.isStoring
  totalItems : s.cache.counters.totalItems = run.countP Execution.hasStored
  stores : s.cache.counters.totalItems ≤ s.cache.counters.sets
  storageErrors : s.metrics.storageErrors = run.countP Execution.hasFailed
  /-- While arenas are smaller than 4 GiB and fewer than 2^64 stamps are drawn, verbs fail for want of space only. -/
  outOfSpace : (settings.backend = .block → settings.partitionBytes < 2 ^ 32) → s.cache.store.drawn < 2 ^ 64 →
    s.metrics.storageErrors = run.countP Execution.isOutOfSpace

section Runs

variable {settings : StorageSettings} {started : Int64} {s t : Service} {run : List Execution}

theorem countP_concat (p : Execution → Bool) (run : List Execution) (e : Execution) :
    (run ++ [e]).countP p = run.countP p + (p e).toNat := by
  rw [List.countP_append, List.countP_singleton]
  cases p e <;> rfl

theorem sum_concat (f : Execution → Nat) (run : List Execution) (e : Execution) :
    ((run ++ [e]).map f).sum = (run.map f).sum + f e := by
  rw [List.map_append, List.sum_append, List.map_singleton, List.sum_singleton]

namespace Agrees

theorem fresh (cache : s.cache = Cache.new settings started) (metrics : s.metrics = {}) : s.Agrees settings [] := by
  constructor
  all_goals simp only [cache, metrics]
  all_goals first | rfl | exact Nat.le_refl 0 | exact fun _ _ => rfl

theorem uncounted (agrees : s.Agrees settings run) (uncounted : s.Uncounted t) : t.Agrees settings run := by
  obtain ⟨counters, getHits, getMisses, storageErrors, drawn⟩ := uncounted
  constructor
  all_goals simp only [counters, getHits, getMisses, storageErrors]
  · exact agrees.reads
  · exact agrees.gets
  · exact agrees.hits
  · exact agrees.getHits
  · exact agrees.getMisses
  · exact agrees.sets
  · exact agrees.totalItems
  · exact agrees.stores
  · exact agrees.storageErrors
  · exact fun small few => agrees.outOfSpace small (Nat.lt_of_le_of_lt drawn few)

/-- One more execution. -/
theorem concat {e : Execution} (agrees : e.service.Agrees settings run) (counted : e.CountedBy t)
    (sound : (settings.backend = .block → settings.partitionBytes < 2 ^ 32) →
      e.service.cache.store.drawn < UInt64.size → e.service.cache.store.Sound ∧ e.service.cache.store.Small) :
    t.Agrees settings (run ++ [e]) := by
  obtain ⟨reads, gets, hits, getHits, getMisses, sets, totalItems, stores, storageErrors, outOfSpace⟩ := agrees
  have counters := counted.counters
  -- The keys without an item are a difference, which is not cut off at zero; and what is stored was asked to be.
  have few := counted.few
  have stored := e.stores_le
  rw [Counters.add_eq, Execution.counted] at counters
  constructor
  all_goals simp only [counters, counted.getHits, counted.getMisses, counted.storageErrors, sum_concat, countP_concat]
  case outOfSpace =>
    intro small few
    have fewer := Nat.lt_of_le_of_lt counted.drawn few
    rw [outOfSpace small fewer, counted.fails (sound small fewer) few]
  all_goals omega

end Agrees

/-- What commands have a service execute, one after the other. -/
def executions (s : Service) : List Session.Command → List Execution
  | [] => []
  | .request r :: later => ⟨s, r⟩ :: (s.execute r).2.executions later
  | .fault e :: later => (s.carryOut (.fault e)).2.executions later

namespace Served

theorem agrees_execute (served : s.Served settings started) (agrees : s.Agrees settings run) (r : Request) :
    (s.execute r).2.Agrees settings (run ++ [⟨s, r⟩]) := by
  refine Agrees.concat (e := ⟨s, r⟩) agrees (countedBy_execute ?_ r) served.sound
  exact served.coherent fun _ _ => trivial

/-- Commands one after the other. -/
theorem agrees_after (served : s.Served settings started) (agrees : s.Agrees settings run)
    {commands : List Session.Command} (read : ∀ c ∈ commands, c.Read) :
    (s.after commands).Agrees settings (run ++ s.executions commands) := by
  induction commands generalizing s run with
  | nil =>
    rw [executions, List.append_nil]
    exact agrees
  | cons c later ih =>
    rw [List.forall_mem_cons] at read
    have served_next := served.carryOut read.1
    cases c with
    | request r =>
      have step := ih served_next (served.agrees_execute agrees r) read.2
      rw [List.append_assoc] at step
      exact step
    | fault e => exact ih served_next (agrees.uncounted ⟨rfl, rfl, rfl, rfl, Nat.le_refl _⟩) read.2

end Served

end Runs

end Service

/-- What a chunk has the service execute. -/
def Session.executions (service : Service) (s : Session) (chunk : Bytes) : List Execution :=
  Service.executions { service with metrics.bytesRead := service.metrics.bytesRead + chunk.length }
    (commands { s with arrived := s.arrived ++ chunk })

theorem Service.Served.agrees_receive {settings : StorageSettings} {started : Int64} {s : Service} {run : List Execution}
    (served : s.Served settings started) (agrees : s.Agrees settings run) (session : Session) (chunk : Bytes) :
    (session.receive s chunk).service.Agrees settings (run ++ session.executions s chunk) := by
  let reading : Service := { s with metrics.bytesRead := s.metrics.bytesRead + chunk.length }
  let arrived : Session := { session with arrived := session.arrived ++ chunk }
  have served_reading : reading.Served settings started := served.congr rfl
  have agrees_reading : reading.Agrees settings run := agrees.uncounted ⟨rfl, rfl, rfl, rfl, Nat.le_refl _⟩
  have done : (arrived.process reading).service = reading.after arrived.commands :=
    (processAfter_commands [] reading arrived).2
  have processed := served_reading.agrees_after agrees_reading fun c => Session.read_of_mem_commands (s := arrived)
  rw [← done] at processed
  exact processed.uncounted ⟨rfl, rfl, rfl, rfl, Nat.le_refl _⟩

namespace Server

/-- What an event has a server execute. -/
def executed (s : Server) : Event → List Execution
  | .send client chunk =>
    match s.connections.lookup client with
    | none => []
    | some connection => if chunk.isEmpty then [] else connection.session.executions s.service chunk
  | .connect | .hangUp _ | .advance _ | .stop => []

/-- What events have it execute, one after the other. -/
def executions (s : Server) : List Event → List Execution
  | [] => []
  | event :: later => s.executed event ++ (s.handle event).executions later

variable {settings : StorageSettings} {started : Int64} {s : Server} {run : List Execution}

theorem agrees_handle (served : s.service.Served settings started) (agrees : s.service.Agrees settings run)
    (event : Event) : (s.handle event).service.Agrees settings (run ++ s.executed event) := by
  have still {t : Service} (uncounted : s.service.Uncounted t) : t.Agrees settings (run ++ []) := by
    rw [List.append_nil]
    exact agrees.uncounted uncounted
  cases event with
  | connect =>
    refine still ?_
    rw [handle, connect]
    repeat' split
    all_goals exact ⟨rfl, rfl, rfl, rfl, Nat.le_refl _⟩
  | hangUp client => exact still ⟨rfl, rfl, rfl, rfl, Nat.le_refl _⟩
  | send client chunk =>
    rw [handle, send, executed]
    cases s.connections.lookup client with
    | none => exact still (.refl s.service)
    | some connection =>
      dsimp only
      split
      · exact still (.refl s.service)
      · have received := served.agrees_receive agrees connection.session chunk
        split
        · exact received.uncounted ⟨rfl, rfl, rfl, rfl, Nat.le_refl _⟩
        · exact received
  | advance seconds =>
    have passed : s.service.Uncounted (s.service.setClock (s.service.clock + seconds)) := .setClock _ _
    exact still ⟨passed.counters, passed.getHits, passed.getMisses, passed.storageErrors, passed.drawn⟩
  | stop => exact still ⟨rfl, rfl, rfl, rfl, Nat.le_refl _⟩

theorem agrees_run (served : s.service.Served settings started) (agrees : s.service.Agrees settings run)
    (events : List Event) : (s.run events).service.Agrees settings (run ++ s.executions events) := by
  induction events generalizing s run with
  | nil =>
    rw [executions, List.append_nil]
    exact agrees
  | cons event later ih =>
    rw [executions, ← List.append_assoc]
    exact ih (served_handle served event) (agrees_handle served agrees event)

/-- In every state that a new server comes to, the statistics agree with the replies. -/
theorem statistics_agree {settings : StorageSettings} {started : Int64} {s : Server}
    (new : s.service.cache = Cache.new settings started) (fresh : s.service.metrics = {}) (events : List Event) :
    (s.run events).service.Agrees settings (s.executions events) :=
  agrees_run ⟨[], nofun, new⟩ (.fresh new fresh) events

/-- A value that is stored without a reply, read and extended, a key that holds none, and a value that does not fit. -/
theorem statistics_agree_mixed :
    let sent := Bytes.ofString "set k 0 0 1 noreply\r\n5\r\nget k m\r\nappend k 0 0 1\r\n0\r\nset m 0 0 90\r\n" ++
      List.replicate 90 0 ++ Bytes.crlf
    let s := emptyServer (oneArena 100)
    let t := s.run [.connect, .send 0 sent]
    t.service.Agrees (oneArena 100) (s.executions [.connect, .send 0 sent]) ∧
      t.service.cache.counters = { gets := 2, sets := 3, hits := 1, misses := 1, totalItems := 1 } ∧
      t.service.metrics.storageErrors = 1 := by
  intro sent s t
  exact ⟨statistics_agree (s := emptyServer (oneArena 100)) rfl rfl _, by decide +kernel⟩

end Server
end BlockCache

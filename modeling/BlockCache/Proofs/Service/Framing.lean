import BlockCache.Proofs.Service.Served
import BlockCache.Proofs.Wire.Values

/-!
# Replies in order

What a client asks for can be read off the bytes alone: a list of commands, up to the first goodbye. The output
is what they are answered, one reply each, in their order; those that decline the reply do all that they would
have done, and are not heard of. What comes back can be cut into replies again: all replies but those to reads and
statistics are lines, and a reply to a read says where it ends.
-/

namespace BlockCache

namespace Session

/-- What a client's bytes ask for. -/
inductive Command where
  | request (r : Request)
  /-- A line that is no request. -/
  | fault (e : RequestError)

/-- The commands in what has arrived, up to the first goodbye. -/
def commands (s : Session) : List Command :=
  if 0 < s.skip.discard then []
  else match _ : Reading.ofBytes s.skip.arrived with
    | .needMore => []
    | .refused e => .fault e :: commands ⟨afterLine s.skip.arrived, e.blockLength⟩
    | .complete request consumed =>
      if request = .quit then []
      else .request request :: commands { s.skip with arrived := s.skip.arrived.drop consumed }
termination_by s.arrived.length
decreasing_by
  · exact Nat.lt_of_lt_of_le (length_afterLine_lt (by assumption)) s.length_skip_le
  · exact Nat.lt_of_lt_of_le (length_drop_consumed_lt (by assumption)) s.length_skip_le

namespace Command

/-- Whether the command wants a reply. A line that is no request gets one always. -/
def isAnswered : Command → Bool
  | request r => !r.isNoreply
  | fault _ => true

/-- Reads and statistics are answered in several lines. -/
def isListing : Command → Bool
  | request (.get ..) | request (.stats _) => true
  | _ => false

/-- Some bytes ask for the command. -/
def Read : Command → Prop
  | request r => r ≠ .quit ∧ ∃ arrived consumed, Reading.ofBytes arrived = .complete r consumed
  | fault e => ∃ arrived, Reading.ofBytes arrived = .refused e

end Command

section Equations

variable {s : Session} (ready : ¬ 0 < s.skip.discard)

include ready

theorem commands_of_needMore (read : Reading.ofBytes s.skip.arrived = .needMore) : s.commands = [] := by
  rw [commands, if_neg ready]
  split <;> simp_all

theorem commands_of_refused {e : RequestError} (read : Reading.ofBytes s.skip.arrived = .refused e) :
    s.commands = .fault e :: commands ⟨afterLine s.skip.arrived, e.blockLength⟩ := by
  rw [commands, if_neg ready]
  split <;> simp_all

theorem commands_of_quit {consumed : Nat} (read : Reading.ofBytes s.skip.arrived = .complete .quit consumed) :
    s.commands = [] := by
  rw [commands, if_neg ready]
  split <;> simp_all

theorem commands_of_complete {request : Request} {consumed : Nat}
    (read : Reading.ofBytes s.skip.arrived = .complete request consumed) (stays : request ≠ .quit) :
    s.commands = .request request :: commands { s.skip with arrived := s.skip.arrived.drop consumed } := by
  rw [commands, if_neg ready]
  split <;> simp_all

end Equations

theorem read_of_mem_commands {s : Session} {c : Command} (mem : c ∈ s.commands) : c.Read := by
  fun_induction commands s with
  | case1 | case2 | case4 => cases mem
  | case3 s _ e read ih =>
    rcases List.mem_cons.1 mem with rfl | later
    · exact ⟨_, read⟩
    · exact ih later
  | case5 s _ request consumed read stays ih =>
    rcases List.mem_cons.1 mem with rfl | later
    · exact ⟨stays, _, _, read⟩
    · exact ih later

end Session

/-- The request with a reply. -/
def Request.withReply : Request → Request
  | store verb key flags expire data cas _ => .store verb key flags expire data cas false
  | delete key hold _ => .delete key hold false
  | incr key delta _ => .incr key delta false
  | decr key delta _ => .decr key delta false
  | flushAll delay _ => .flushAll delay false
  | verbosity _ => .verbosity false
  | r => r

namespace Service

open Session (Command)
open Reply (OneLine)

/-- Carries out one command. -/
def carryOut (s : Service) : Command → List Reply × Service
  | .request r => s.execute r
  | .fault e => ([e.reply], { s with metrics.protocolErrors := s.metrics.protocolErrors + 1 })

/-- The service after some commands. -/
def after (s : Service) (commands : List Command) : Service := commands.foldl (fun s c => (s.carryOut c).2) s

/-- The replies to the commands that want one. -/
def replies (s : Service) : List Command → List (List Reply)
  | [] => []
  | c :: later => (if c.isAnswered then [(s.carryOut c).1] else []) ++ (s.carryOut c).2.replies later

theorem replies_append (s : Service) (before later : List Command) :
    s.replies (before ++ later) = s.replies before ++ (s.after before).replies later := by
  induction before generalizing s with
  | nil => rfl
  | cons c before ih =>
    rw [List.cons_append, replies, replies, ih, List.append_assoc]
    rfl

/-- What a request does, it does without a reply as well. -/
theorem execute_withReply (s : Service) (r : Request) : s.execute r.withReply = s.execute r := by
  cases r <;> rfl

/-- Processing carries out the commands in order, and answers those that want a reply. -/
theorem processAfter_commands (answers : List (List Reply)) (service : Service) (s : Session) :
    (s.processAfter answers service).answers = answers.reverse ++ service.replies s.commands ∧
      (s.processAfter answers service).service = service.after s.commands := by
  -- The loop ends with no bytes, a request cut short or `quit`, and goes on after a fault or a request.
  fun_induction Session.processAfter answers service s with
  | case1 answers service s left =>
    rw [Session.commands, if_pos left]
    exact ⟨(List.append_nil _).symm, rfl⟩
  | case2 answers service s ready read =>
    rw [Session.commands_of_needMore ready read]
    exact ⟨(List.append_nil _).symm, rfl⟩
  | case3 answers service s ready e read ih =>
    rw [Session.commands_of_refused ready read, ih.1, ih.2, List.reverse_cons, List.append_assoc]
    exact ⟨rfl, rfl⟩
  | case4 answers service s ready consumed read =>
    rw [Session.commands_of_quit ready read]
    exact ⟨(List.append_nil _).symm, rfl⟩
  | case5 answers service s ready request consumed read stays replies after executed ih =>
    have done : service.carryOut (.request request) = (replies, after) := executed
    simp only [dite_eq_ite] at ih
    rw [Session.commands_of_complete ready read stays, ih.1, ih.2, Service.replies, done]
    refine ⟨?_, by rw [Service.after, Service.after, List.foldl_cons, done]⟩
    cases declined : request.isNoreply <;> simp [Command.isAnswered, declined]

section Lines

variable {settings : StorageSettings} {started : Int64} {s : Service}

theorem oneLine_storeFault (s : Service) {e : StoreError} (reported : StoreError.Reported Key.Sendable e) :
    OneLine (s.storeFault e).1 := by
  have unbroken := StoreError.unbroken_message reported
  cases e with
  | notANumber => exact Reply.oneLine_clientError (Bytes.unbroken_of_not_mem (by decide))
  | outOfSpace => exact Reply.oneLine_serverError (Bytes.unbroken_of_not_mem (by decide))
  | _ => exact Reply.oneLine_serverError unbroken

theorem oneLine_take (s : Service) {invariant : Cache → Prop} {step : Cache.Step α}
    (steps : Steps (StoreError.Reported Key.Sendable) invariant step) {reply : α → Reply}
    (lines : ∀ answer, OneLine [reply answer]) : OneLine (s.take step reply).1 := by
  rcases step with ⟨e | answer, cache⟩
  · exact oneLine_storeFault _ (steps.arises e rfl)
  · exact lines answer

theorem Served.carryOut (served : s.Served settings started) {c : Command} (read : c.Read) :
    (s.carryOut c).2.Served settings started := by
  cases c with
  | request r =>
    obtain ⟨-, arrived, consumed, read⟩ := read
    exact served.execute (Reading.sendable read)
  | fault e => exact served.congr rfl

theorem Served.after (served : s.Served settings started) {commands : List Command} (read : ∀ c ∈ commands, c.Read) :
    (s.after commands).Served settings started := by
  induction commands generalizing s with
  | nil => exact served
  | cons c commands ih =>
    rw [List.forall_mem_cons] at read
    exact ih (served.carryOut read.1) read.2

theorem steps_of_map {errors : StoreError → Prop} {invariant : Cache → Prop} {step : Cache.Step α} {f : α → β}
    (steps : Steps errors invariant (step.map (.map f) id)) : Steps errors invariant step := by
  rcases step with ⟨e | answer, cache⟩
  · exact .error (steps.arises e rfl) steps.kept
  · exact .ok answer steps.kept

/-- Every reply that is no listing is one line. -/
theorem Served.oneLine (served : s.Served settings started) {c : Command} (read : c.Read) (single : c.isListing = false) :
    OneLine (s.carryOut c).1 := by
  cases c with
  | fault e =>
    obtain ⟨arrived, read⟩ := read
    exact Reply.oneLine_of_refused read
  | request r =>
    obtain ⟨stays, arrived, consumed, read⟩ := read
    have sendable := Reading.sendable read
    have performs (op : Cache.Operation) (may : op.Allowed Key.Sendable) :=
      (served.coherent fun _ => id).perform s.now may
    have adds {key : Key} (may : key.Sendable) (delta : Int64) : OneLine ((s.counted r).addNumber key delta).1 := by
      refine oneLine_take _ (steps_of_map (performs (.addNumber key delta) may)) fun sum => ?_
      cases sum with
      | none => exact Reply.oneLine_of_word rfl (by decide)
      | some sum => exact Reply.oneLine_number sum
    cases r with
    | get | stats => cases single
    | quit => exact absurd rfl stays
    | store verb key flags expire data cas noreply =>
      let item : Item := { key, flags, expire, data, storedAt := s.now }
      have stores := performs (verb.operation item cas) (by cases verb <;> exact sendable)
      have steps : Steps (StoreError.Reported Key.Sendable) (Cache.Coherent Key.Sendable)
          (verb.step s.cache s.now item cas) := by
        cases verb <;> exact steps_of_map stores
      exact oneLine_take _ steps Reply.oneLine_store
    | delete key hold noreply =>
      exact oneLine_take _ (steps_of_map (performs (.delete key hold) sendable)) Reply.oneLine_delete
    | incr key delta noreply => exact adds sendable _
    | decr key delta noreply => exact adds sendable _
    | flushAll | version | verbosity => exact Reply.oneLine_of_word rfl (by decide)

/-- A read is answered by items under keys that may be sent, or fails in one line. -/
theorem Served.read_replies (served : s.Served settings started) {keys : List Key} {withCas : Bool}
    (read : Command.Read (.request (.get keys withCas))) :
    OneLine (s.carryOut (.request (.get keys withCas))).1 ∨
      ∃ found : List Item, (∀ i ∈ found, i.key.Sendable) ∧
        (s.carryOut (.request (.get keys withCas))).1 = found.map (Item.reply withCas) ++ [.finish] := by
  obtain ⟨-, arrived, consumed, read⟩ := read
  have sendable : ∀ key ∈ keys, key.Sendable := Reading.sendable read
  have coherent : s.cache.Coherent Key.Sendable := served.coherent fun _ => id
  have steps := coherent.getFrom s.now keys []
  have done : s.carryOut (.request (.get keys withCas)) = (s.counted (.get keys withCas)).read keys withCas := rfl
  rw [done, Service.read, show (s.counted _).cache.get (s.counted _).now keys = s.cache.getFrom s.now [] keys from rfl]
  rcases result : s.cache.getFrom s.now [] keys with ⟨e | found, cache⟩
  · rw [result] at steps
    exact .inl (oneLine_storeFault _ (steps.arises e rfl))
  · refine .inr ⟨found, fun i mem => ?_, rfl⟩
    rcases coherent.key_of_getFrom result mem with none_before | asked
    · cases none_before
    · exact sendable _ asked

end Lines

/-- How a service answers the bytes of a client. -/
structure Frames (service : Service) (s : Session) : Prop where
  /-- The output is the replies to the commands that want one, in their order. -/
  output : (s.process service).output = (service.replies s.commands).flatMap Reply.renderAll
  state : (s.process service).service = service.after s.commands
  /-- Who declines the reply to a request gets all else that it does, and the replies before it and after it. -/
  declined : ∀ before r later, s.commands = before ++ .request r :: later → r.isNoreply = true →
    (service.after before).execute r = (service.after before).execute r.withReply ∧
      service.replies s.commands =
        service.replies before ++ ((service.after before).execute r.withReply).2.replies later
  /-- All replies but listings are single lines. -/
  lines : ∀ before c later, s.commands = before ++ c :: later → c.isListing = false →
    OneLine ((service.after before).carryOut c).1
  /-- A read is answered by items under keys that may be sent, or fails in one line. -/
  reads : ∀ before keys withCas later, s.commands = before ++ .request (.get keys withCas) :: later →
    OneLine ((service.after before).carryOut (.request (.get keys withCas))).1 ∨
      ∃ found : List Item, (∀ i ∈ found, i.key.Sendable) ∧
        ((service.after before).carryOut (.request (.get keys withCas))).1 =
          found.map (Item.reply withCas) ++ [.finish]

theorem Served.frames {settings : StorageSettings} {started : Int64} {s : Service} (served : s.Served settings started)
    (session : Session) : s.Frames session := by
  have processed := processAfter_commands [] s session
  have reads {before : List Command} {c : Command} {later : List Command}
      (there : session.commands = before ++ c :: later) : c.Read ∧ (s.after before).Served settings started := by
    have read (d : Command) (mem : d ∈ before ++ c :: later) : d.Read := Session.read_of_mem_commands (there ▸ mem)
    exact ⟨read c (by simp), served.after fun d mem => read d (List.mem_append_left _ mem)⟩
  constructor
  · rw [Session.Outcome.output, Session.process, processed.1, List.reverse_nil, List.nil_append, ← List.flatMap_id]
    exact List.flatMap_assoc
  · exact processed.2
  · intro before r later there declines
    have silent : (Command.request r).isAnswered = false := by rw [Command.isAnswered, declines]; rfl
    refine ⟨(execute_withReply _ r).symm, ?_⟩
    rw [there, replies_append, replies, silent, execute_withReply]
    rfl
  · intro before c later there single
    obtain ⟨read, after⟩ := reads there
    exact after.oneLine read single
  · intro before keys withCas later there
    obtain ⟨read, after⟩ := reads there
    exact after.read_replies read

end Service

namespace Server

/-- In every state that a server comes to, the replies to whatever bytes are processed can be told apart. -/
theorem frames_run {settings : StorageSettings} {started : Int64} {s : Server}
    (new : s.service.cache = Cache.new settings started) (events : List Event) (session : Session) :
    (s.run events).service.Frames session ∧
      ∀ (withCas : Bool) (found other : List Item), (∀ i ∈ found, i.key.Sendable) → (∀ i ∈ other, i.key.Sendable) →
        Reply.renderAll (found.map (Item.reply withCas) ++ [.finish]) <+:
          Reply.renderAll (other.map (Item.reply withCas) ++ [.finish]) →
        found.map (Item.reply withCas) = other.map (Item.reply withCas) := by
  refine ⟨?_, fun withCas found other left right front => Reply.items_prefix left right front⟩
  have served : (s.run events).service.Served settings started := served_run ⟨[], nofun, new⟩ events
  exact served.frames session

/-- A value that looks like replies, stored without a reply, and a line that is no request. -/
theorem frames_run_value :
    let value : Item := { key := ⟨[107]⟩, data := Bytes.ofString "1\r\nEND\r\n" }
    let sent := Bytes.ofString "set k 0 0 8 noreply\r\n" ++ value.data ++ Bytes.ofString "\r\nbogus\r\nget k\r\n"
    let s := (emptyServer (oneArena 100)).run [.connect]
    (s.service.Frames ⟨sent, 0⟩ ∧ (Session.commands ⟨sent, 0⟩).map (·.isAnswered) = [false, true, true]) ∧
      [value].map (Item.reply true) = [value].map (Item.reply true) := by
  intro value sent s
  have sendable : ∀ i ∈ [value], i.key.Sendable := by
    intro i mem
    rw [List.mem_singleton.1 mem]
    exact Key.isValid_iff.1 (by decide)
  obtain ⟨frames, reads⟩ := frames_run (s := emptyServer (oneArena 100)) rfl [.connect] ⟨sent, 0⟩
  exact ⟨⟨frames, by decide +kernel⟩, reads true [value] [value] sendable sendable List.prefix_rfl⟩

end Server
end BlockCache

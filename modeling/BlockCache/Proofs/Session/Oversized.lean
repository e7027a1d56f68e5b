import BlockCache.Proofs.Service.Framing
import BlockCache.Proofs.Session.LongLines

/-!
# Data blocks that are too large

A storing line may announce more data than the service takes. It is answered at once, and what it announced is
dropped with its line end, byte by byte as it arrives and whatever is in it. Nothing else comes of it: from then on
the service deals with the client as if the line and the block had never been sent.
-/

namespace BlockCache

namespace Reading

open Decimal (Unsigned Signed)

/-- The tokens of a storing line that is well formed but announces more than 1 MiB. -/
inductive OversizedForm : List Bytes → Nat → Prop where
  | mk {verb : StoreVerb} {command flagsToken expireToken lengthToken : Bytes} {key : Key} {more rest : List Bytes}
      {flags : UInt32} {expire : Int64} {length : Nat} {cas : UInt64} (named : Spells command (Bytes.ofString verb.name))
      (valid : key.Sendable) (flagged : Unsigned flagsToken flags.toNat) (timed : Signed expireToken expire.toInt)
      (sized : Unsigned lengthToken length) (large : 1048576 < length) (guarded : CasToken verb more cas rest) :
      OversizedForm (command :: key.bytes :: flagsToken :: expireToken :: lengthToken :: more) length

theorem ofTokens_of_oversized {tokens : List Bytes} {length : Nat} (form : OversizedForm tokens length)
    (counted : length < UInt64.size) : ofTokens tokens = .error (.valueTooLarge length) := by
  obtain @⟨verb, command, flagsToken, expireToken, lengthToken, key, more, rest, flags, expire, _, cas, named, valid,
    flagged, timed, sized, large, guarded⟩ := form
  have tooLarge : maxValueLength < length := large
  have store : storeArgs verb (key.bytes :: flagsToken :: expireToken :: lengthToken :: more) =
      .error (.valueTooLarge length) := by
    rw [storeArgs, keyArg_eq_ok.mpr ⟨rfl, valid⟩]
    simp only [bind, Except.bind, numberArg, Decimal.readUInt32?_eq_some.mpr flagged,
      Decimal.readInt64?_eq_some.mpr timed, Decimal.readNat?_eq_some.mpr ⟨sized, Nat.le_sub_one_of_lt counted⟩]
    cases guarded with
    | named number =>
      simp only [if_pos, Decimal.readUInt64?_eq_some.mpr number]
      rw [if_pos tooLarge]
      rfl
    | absent other =>
      rw [if_neg other]
      dsimp only [pure, Except.pure]
      rw [if_pos tooLarge]
      rfl
  simp only [ofTokens, names_of_spells named (isSmall_verb verb)]
  cases verb <;> exact store

end Reading

namespace Session

/-- The outcome, with more refusals counted. -/
def Outcome.refusing (o : Outcome) (refusals : Nat) : Outcome := { o with service := Session.refusing o.service refusals }

/-- The exchange, with more refusals counted. -/
def Exchange.refusing (x : Exchange) (refusals : Nat) : Exchange :=
  { x with service := Session.refusing x.service refusals }

section Counting

variable (service : Service) (refusals : Nat)

theorem take_refusing {α : Type} (step : Cache.Step α) (reply : α → Reply) :
    (refusing service refusals).take step reply =
      ((service.take step reply).1, refusing (service.take step reply).2 refusals) := by
  rcases step with ⟨e | answer, cache⟩
  · cases e <;> rfl
  · rfl

theorem read_refusing (keys : List Key) (withCas : Bool) : (refusing service refusals).read keys withCas =
    ((service.read keys withCas).1, refusing (service.read keys withCas).2 refusals) := by
  have same : (refusing service refusals).cache.get (refusing service refusals).now keys =
      service.cache.get service.now keys := rfl
  rw [Service.read, Service.read, same]
  rcases service.cache.get service.now keys with ⟨e | found, cache⟩
  · cases e <;> rfl
  · rfl

theorem flush_refusing (delay : Int64) :
    (refusing service refusals).flush delay = refusing (service.flush delay) refusals := by
  rw [Service.flush, Service.flush, apply_ite (refusing · refusals)]
  rfl

/-- No request looks at the count of refused lines, and none changes it. -/
theorem perform_refusing (r : Request) : (refusing service refusals).perform r =
    ((service.perform r).1, refusing (service.perform r).2 refusals) := by
  cases r with
  | get keys withCas => exact read_refusing service refusals keys withCas
  | store | delete | incr | decr => exact take_refusing service refusals _ _
  | flushAll delay => exact congrArg (Prod.mk _) (flush_refusing service refusals delay)
  | stats | version | verbosity | quit => rfl

theorem execute_refusing (r : Request) : (refusing service refusals).execute r =
    ((service.execute r).1, refusing (service.execute r).2 refusals) :=
  perform_refusing { service with metrics := { service.metrics.recordCommand r.name with timed := service.metrics.timed + 1 } }
    refusals r

theorem carryOut_refusing (c : Command) :
    ((refusing service refusals).carryOut c).2 = refusing (service.carryOut c).2 refusals := by
  cases c with
  | request r => exact congrArg Prod.snd (execute_refusing service refusals r)
  | fault e =>
    rw [Service.carryOut, Service.carryOut, refusing, refusing, Nat.add_right_comm]

theorem processAfter_refusing (answers : List (List Reply)) (s : Session) :
    processAfter answers (refusing service refusals) s = (processAfter answers service s).refusing refusals := by
  fun_induction processAfter answers service s with
  | case1 answers service s left => exact processAfter_of_discard left
  | case2 answers service s left read => exact processAfter_of_needMore (Nat.eq_zero_of_not_pos left) read
  | case3 answers service s left e read ih =>
    rw [processAfter_of_refused (Nat.eq_zero_of_not_pos left) read, ← ih, refusing, refusing, Nat.add_right_comm]
  | case4 answers service s left consumed read => exact processAfter_of_quit (Nat.eq_zero_of_not_pos left) read
  | case5 answers service s left request consumed read stays replies after executed ih =>
    rw [processAfter_of_complete (Nat.eq_zero_of_not_pos left) read stays, execute_refusing, executed]
    exact ih

theorem process_refusing (s : Session) :
    process (refusing service refusals) s = (process service s).refusing refusals :=
  processAfter_refusing service refusals [] s

end Counting

/-- What a service goes through while a client sends nothing. -/
inductive Interlude where
  | timePasses (clock : Int)
  /-- Another client is served. -/
  | served (c : Command)
  /-- The counters are brought up to date. `receive` counts the bytes of a chunk before they are processed and those of
  the output after it; what is dropped is counted, too, and the statistics show it. -/
  | counted (counters : Metrics)

/-- The service after the interlude. Refused lines are counted where they are refused. -/
def Interlude.pass (service : Service) : Interlude → Service
  | timePasses clock => service.setClock clock
  | served c => (service.carryOut c).2
  | counted counters => { service with metrics := { counters with protocolErrors := service.metrics.protocolErrors } }

theorem Interlude.pass_refusing (service : Service) (refusals : Nat) (i : Interlude) :
    pass (refusing service refusals) i = refusing (pass service i) refusals := by
  cases i with
  | timePasses | counted => rfl
  | served c => exact carryOut_refusing service refusals c

/-- One read from a client, and what the service went through since the read before. -/
structure Arrival where
  before : List Interlude
  chunk : Bytes

namespace Arrival

/-- The service when the chunk is processed. -/
def meanwhile (r : Arrival) (service : Service) : Service := r.before.foldl Interlude.pass service

theorem meanwhile_refusing (r : Arrival) (service : Service) (refusals : Nat) :
    r.meanwhile (refusing service refusals) = refusing (r.meanwhile service) refusals :=
  List.foldl_hom (refusing · refusals) fun service i => (Interlude.pass_refusing service refusals i)

/-- The bytes of some reads. -/
def bytes (reads : List Arrival) : Bytes := reads.flatMap (·.chunk)

/-- The same reads without the first `count` of their bytes. -/
def drop (count : Nat) : List Arrival → List Arrival
  | [] => []
  | r :: later => { r with chunk := r.chunk.drop count } :: drop (count - r.chunk.length) later

theorem drop_zero (reads : List Arrival) : drop 0 reads = reads := by
  induction reads with
  | nil => rfl
  | cons r later ih => rw [drop, List.drop_zero, Nat.zero_sub, ih]

theorem bytes_drop (count : Nat) (reads : List Arrival) : bytes (drop count reads) = (bytes reads).drop count := by
  induction reads generalizing count with
  | nil => exact List.drop_nil.symm
  | cons r later ih =>
    rw [drop, bytes, bytes, List.flatMap_cons, List.flatMap_cons, List.drop_append]
    exact congrArg (_ ++ ·) (ih _)

end Arrival

/-- Processes reads one after the other, up to the first goodbye. -/
def processReads (service : Service) (s : Session) : List Arrival → Exchange
  | [] => ⟨service, s, [], false, []⟩
  | r :: later =>
    let o := process (r.meanwhile service) (s.extend r.chunk)
    if o.quit then o.exchange (Arrival.bytes later) else (processReads o.service o.session later).after o.output

/-- What becomes of the later reads after one with this outcome. -/
def Outcome.proceed (o : Outcome) (later : List Arrival) : Exchange :=
  if o.quit then o.exchange (Arrival.bytes later) else (processReads o.service o.session later).after o.output

section Reads

variable (service : Service) (s : Session) (r : Arrival) (later reads : List Arrival)

theorem processReads_cons :
    processReads service s (r :: later) = (process (r.meanwhile service) (s.extend r.chunk)).proceed later := rfl

theorem proceed_idle : (⟨service, s, [], false⟩ : Outcome).proceed later = processReads service s later := rfl

theorem proceed_after (o : Outcome) (before : List (List Reply)) :
    (o.after before).proceed later = (o.proceed later).after (Reply.renderAll before.flatten) := by
  have output := o.output_after before
  obtain ⟨after, session, answers, quit⟩ := o
  cases quit with
  | true => exact congrArg (Exchange.mk after session · true (Arrival.bytes later)) output
  | false =>
    change (processReads after session later).after _ = ((processReads after session later).after _).after _
    rw [output, Exchange.after, Exchange.after, Exchange.after, List.append_assoc]

theorem processReads_refusing (refusals : Nat) :
    processReads (refusing service refusals) s reads = (processReads service s reads).refusing refusals := by
  induction reads generalizing service s with
  | nil => rfl
  | cons r later ih =>
    rw [processReads_cons, processReads_cons, r.meanwhile_refusing, process_refusing]
    rcases process (r.meanwhile service) (s.extend r.chunk) with ⟨after, session, answers, quit⟩
    cases quit with
    | true => rfl
    | false => exact congrArg (Exchange.after · _) (ih after session)

theorem proceed_refusing (o : Outcome) (refusals : Nat) :
    (o.refusing refusals).proceed later = (o.proceed later).refusing refusals := by
  obtain ⟨after, session, answers, quit⟩ := o
  cases quit with
  | true => rfl
  | false => exact congrArg (Exchange.after · _) (processReads_refusing after session later refusals)

end Reads

theorem skip_eq (arrived : Bytes) (discard : Nat) :
    skip ⟨arrived, discard⟩ = ⟨arrived.drop discard, discard - arrived.length⟩ := by
  rcases Nat.eq_zero_or_pos discard with rfl | some_left
  · rw [skip, if_pos rfl, List.drop_zero, Nat.zero_sub]
  · exact if_neg (Nat.ne_of_gt some_left)

/-- Bytes that are to be dropped might as well not have been sent. -/
theorem processReads_discard (service : Service) {count : Nat} {reads : List Arrival}
    (enough : count ≤ (Arrival.bytes reads).length) :
    processReads service ⟨[], count⟩ reads = processReads service {} (Arrival.drop count reads) := by
  induction reads generalizing service count with
  | nil =>
    obtain rfl : count = 0 := Nat.le_zero.1 enough
    rfl
  | cons r later ih =>
    rw [Arrival.drop, processReads_cons, processReads_cons]
    change (process (r.meanwhile service) ⟨r.chunk, count⟩).proceed later =
      (process (r.meanwhile service) ⟨r.chunk.drop count, 0⟩).proceed _
    have skipped := skip_eq r.chunk count
    rcases Nat.lt_or_ge r.chunk.length count with more | here
    · -- the whole chunk is dropped, and nothing is read on either side
      have all : r.chunk.drop count = [] := List.drop_eq_nil_of_le (Nat.le_of_lt more)
      have left : 0 < (skip ⟨r.chunk, count⟩).discard := by
        rw [skipped]
        exact Nat.sub_pos_of_lt more
      rw [process, processAfter_of_discard left, skipped, all, process_nil]
      rw [Arrival.bytes, List.flatMap_cons, List.length_append] at enough
      exact ih _ (Nat.sub_le_iff_le_add'.2 enough)
    · have done : count - r.chunk.length = 0 := Nat.sub_eq_zero_of_le here
      rw [process, ← processAfter_skip, skipped, done, Arrival.drop_zero]
      rfl

/-- A chunk with which the first part of what was sent is complete. -/
theorem cut_of_append {kept chunk later first last : Bytes} (sent : kept ++ chunk ++ later = first ++ last)
    (waits : kept.length ≤ first.length) (complete : first.length ≤ (kept ++ chunk).length) :
    kept ++ chunk = first ++ chunk.drop (first.length - kept.length) ∧
      chunk.drop (first.length - kept.length) ++ later = last := by
  obtain ⟨rest, begun⟩ : first <+: kept ++ chunk :=
    List.prefix_of_prefix_length_le (sent ▸ List.prefix_append first last) (List.prefix_append _ _) complete
  have remains : rest = chunk.drop (first.length - kept.length) := by
    have behind : (first ++ rest).drop first.length = rest := List.drop_left
    rw [← behind, begun, List.drop_append, List.drop_eq_nil_of_le waits, List.nil_append]
  rw [← remains]
  refine ⟨begun.symm, ?_⟩
  rw [← begun, List.append_assoc] at sent
  exact List.append_cancel_left sent

/-- The line announces `length` bytes of data, which is more than the service takes. -/
structure Oversized (line : Bytes) (length : Nat) : Prop where
  short : line.length < maxLineLength
  unended : ¬ Bytes.crlf <:+: line
  form : Reading.OversizedForm (Bytes.words line) length
  /-- The data and their line end can be counted. -/
  counted : length + 2 < UInt64.size

/-- What is sent in reply. -/
def tooLarge : Bytes := Reply.render (.serverError "object too large for cache")

section Line

variable {line : Bytes} {length : Nat} (oversized : Oversized line length)

include oversized

/-- The line is answered, and as many bytes as it announced are to be dropped. -/
theorem process_oversized (service : Service) (rest : Bytes) : process service ⟨line ++ Bytes.crlf ++ rest, 0⟩ =
    ((process service ⟨rest, length + 2⟩).refusing 1).after [[.serverError "object too large for cache"]] := by
  have counted := oversized.counted
  have read : Reading.ofBytes (line ++ Bytes.crlf ++ rest) = .refused (.valueTooLarge length) := by
    rw [Reading.ofBytes_line oversized.unended, Reading.ofTokens_of_oversized oversized.form (by omega)]
  have cut : Bytes.splitLine (line ++ Bytes.crlf ++ rest) = some (line, rest) :=
    Bytes.splitLine_eq_some_iff.2 ⟨rfl, oversized.unended⟩
  have follows : afterLine (line ++ Bytes.crlf ++ rest) = rest := by rw [afterLine, cut]
  have announced : (RequestError.valueTooLarge length).blockLength = length + 2 := by
    rw [RequestError.blockLength]
    omega
  rw [process, processAfter_of_refused (s := ⟨line ++ Bytes.crlf ++ rest, 0⟩) rfl read]
  change processAfter _ (refusing service 1) ⟨afterLine (line ++ Bytes.crlf ++ rest), _⟩ = _
  rw [follows, announced, processAfter_eq, process_refusing]
  rfl

/-- A read in which the line ends. -/
theorem proceed_oversized (service : Service) (r : Arrival) (later : List Arrival) (rest : Bytes) :
    (process (r.meanwhile service) ⟨line ++ Bytes.crlf ++ rest, 0⟩).proceed later =
      ((processReads service ⟨[], length + 2⟩ ({ r with chunk := rest } :: later)).refusing 1).after tooLarge := by
  rw [process_oversized oversized, proceed_after, proceed_refusing]
  rfl

/-- A line, part of which has arrived, that announces too much: with the bytes announced it is answered, and then might
as well not have been sent. -/
theorem processReads_from (service : Service) {kept stream block : Bytes} {reads : List Arrival}
    (announced : block.length = length + 2)
    (sent : kept ++ Arrival.bytes reads = line ++ Bytes.crlf ++ block ++ stream) (waits : kept.length ≤ line.length + 1) :
    processReads service ⟨kept, 0⟩ reads =
      ((processReads service {} (Arrival.drop (line.length + length + 4 - kept.length) reads)).refusing 1).after
        tooLarge := by
  induction reads generalizing service kept with
  | nil =>
    have lengths := congrArg List.length sent
    simp only [Arrival.bytes, List.flatMap_nil, List.append_nil, List.length_append] at lengths
    omega
  | cons r later ih =>
    have short := oversized.short
    rw [Arrival.bytes, List.flatMap_cons, ← List.append_assoc] at sent
    change kept ++ r.chunk ++ Arrival.bytes later = _ at sent
    rw [processReads_cons, Arrival.drop, processReads_cons]
    change (process (r.meanwhile service) ⟨kept ++ r.chunk, 0⟩).proceed later =
      (((process (r.meanwhile service) ⟨r.chunk.drop _, 0⟩).proceed _).refusing 1).after tooLarge
    have length_kept : (kept ++ r.chunk).length = kept.length + r.chunk.length := List.length_append
    rcases Nat.lt_or_ge (line.length + 1) (kept ++ r.chunk).length with ended | waiting
    · -- what the read holds beyond the line is the beginning of the block, or the block and more
      have through : (line ++ Bytes.crlf).length = line.length + 2 := List.length_append
      rw [List.append_assoc (line ++ Bytes.crlf)] at sent
      obtain ⟨begun, remains⟩ := cut_of_append sent (by omega) (by omega)
      rw [through] at begun remains
      have enough : length + 2 ≤
          (Arrival.bytes ({ r with chunk := r.chunk.drop (line.length + 2 - kept.length) } :: later)).length := by
        rw [Arrival.bytes, List.flatMap_cons]
        change _ ≤ (r.chunk.drop _ ++ Arrival.bytes later).length
        rw [remains, List.length_append, announced]
        exact Nat.le_add_right _ _
      have same : line.length + 2 - kept.length + (length + 2) = line.length + length + 4 - kept.length := by omega
      have left : length + 2 - (r.chunk.length - (line.length + 2 - kept.length)) =
          line.length + length + 4 - kept.length - r.chunk.length := by omega
      rw [begun, proceed_oversized oversized, processReads_discard service enough, Arrival.drop, processReads_cons,
        List.drop_drop, List.length_drop, same, left]
      rfl
    · -- the line has not ended, and of the other reads nothing is left yet
      have cut : Bytes.splitLine (kept ++ r.chunk ++ Arrival.bytes later) = some (line, block ++ stream) := by
        rw [sent, List.append_assoc (line ++ Bytes.crlf)]
        exact Bytes.splitLine_eq_some_iff.2 ⟨rfl, oversized.unended⟩
      have uncut := Bytes.splitLine_eq_none_of_length_le cut waiting
      have none_left : r.chunk.drop (line.length + length + 4 - kept.length) = [] :=
        List.drop_eq_nil_of_le (by omega)
      rw [process_of_splitLine_eq_none uncut, if_neg (by omega), none_left, process_nil, proceed_idle]
      have rest := ih (r.meanwhile service) sent waiting
      rw [length_kept, ← Nat.sub_sub] at rest
      exact rest

end Line

/-- The exchange is one that gets along without the line and the block, but for the answer to the line. -/
structure Exchange.DiffersByRefusal (x alone : Exchange) : Prop where
  output : x.output = tooLarge ++ alone.output
  cache : x.service.cache = alone.service.cache
  /-- Nothing else of the service has changed, but one refused line is counted. -/
  service : x.service = Session.refusing alone.service 1
  session : x.session = alone.session
  quit : x.quit = alone.quit
  unread : x.unread = alone.unread

/-- A line that announces too much data is answered, and what it announced is dropped, whatever it is and however it
arrives. What comes after it is dealt with as if the reads had held nothing else. -/
theorem processReads_oversized {line block stream : Bytes} {length : Nat} (oversized : Oversized line length)
    (announced : block.length = length + 2) (service : Service) {reads : List Arrival}
    (sent : Arrival.bytes reads = line ++ Bytes.crlf ++ block ++ stream) :
    let follows := Arrival.drop (line.length + length + 4) reads
    Arrival.bytes follows = stream ∧ (processReads service {} reads).DiffersByRefusal (processReads service {} follows) := by
  intro follows
  have ends : (line ++ Bytes.crlf ++ block).length = line.length + length + 4 := by
    rw [List.length_append, announced, List.length_append]
    change line.length + 2 + _ = _
    omega
  have nothing_kept : [] ++ Arrival.bytes reads = line ++ Bytes.crlf ++ block ++ stream := sent
  have whole : processReads service {} reads = ((processReads service {} follows).refusing 1).after tooLarge :=
    processReads_from oversized service announced nothing_kept (Nat.zero_le _)
  refine ⟨?_, ?_⟩
  · rw [Arrival.bytes_drop, sent, ← ends, List.drop_left]
  · rw [whole]
    exact ⟨rfl, rfl, rfl, rfl, rfl, rfl⟩

/-- A block that begins with a command of its own, cut in the midst of it, while another client stores an item. -/
theorem processReads_oversized_flush :
    let line := Bytes.ofString "set k 0 0 1048577"
    let command := Bytes.ofString "\r\nflush_all\r\n"
    let data := List.replicate 1048566 120
    let stored : Request := .store .set ⟨Bytes.ofString "other"⟩ 0 0 (Bytes.ofString "v") 0 false
    let reads : List Arrival :=
      [⟨[], line ++ Bytes.crlf ++ command.take 5⟩,
        ⟨[.timePasses 1, .served (.request stored)], command.drop 5 ++ data ++ Bytes.ofString "get other\r\n"⟩]
    (Oversized line 1048577 ∧ (command ++ data).length = 1048577 + 2 ∧
      Arrival.bytes reads = line ++ Bytes.crlf ++ (command ++ data) ++ Bytes.ofString "get other\r\n") ∧
    let follows := Arrival.drop (line.length + 1048577 + 4) reads
    Arrival.bytes follows = Bytes.ofString "get other\r\n" ∧
      (processReads (emptyService 0) {} reads).DiffersByRefusal (processReads (emptyService 0) {} follows) := by
  intro line command data
  have length_data : data.length = 1048566 := List.length_replicate
  clear_value data
  intro stored reads
  have words : Bytes.words line = [Bytes.ofString "set", Bytes.ofString "k", Bytes.ofString "0", Bytes.ofString "0",
      Bytes.ofString "1048577"] := by decide
  have form : Reading.OversizedForm (Bytes.words line) 1048577 := by
    rw [words]
    have named : Reading.Spells (Bytes.ofString "set") (Bytes.ofString StoreVerb.set.name) :=
      (Reading.names_iff (Reading.isSmall_verb .set)).1 (by decide)
    have zero : Decimal.Unsigned (Bytes.ofString "0") 0 := (Decimal.readUInt32?_eq_some (n := 0)).1 (by decide)
    have sized : Decimal.Unsigned (Bytes.ofString "1048577") 1048577 :=
      (Decimal.readUInt32?_eq_some (n := 1048577)).1 (by decide)
    exact @Reading.OversizedForm.mk .set _ _ _ _ ⟨Bytes.ofString "k"⟩ [] [] 0 0 1048577 0 named
      (Key.isValid_iff.1 (by decide)) zero (.unsigned zero) sized (by decide) (.absent (by decide))
  have oversized : Oversized line 1048577 := ⟨by decide, by decide, form, by decide⟩
  have announced : (command ++ data).length = 1048577 + 2 := by
    have length_command : command.length = 13 := by decide
    rw [List.length_append, length_command, length_data]
  have sent : Arrival.bytes reads = line ++ Bytes.crlf ++ (command ++ data) ++ Bytes.ofString "get other\r\n" := by
    change line ++ Bytes.crlf ++ command.take 5 ++ (command.drop 5 ++ data ++ _ ++ []) = _
    rw [List.append_nil]
    conv_rhs => rw [← List.take_append_drop 5 command]
    simp only [List.append_assoc]
  exact ⟨⟨oversized, announced, sent⟩, processReads_oversized oversized announced (emptyService 0) sent⟩

end Session
end BlockCache

import BlockCache.Proofs.Wire.Stability
import BlockCache.Service.Session
import Mathlib.Logic.Relation

/-!
# Bytes in chunks

A client's bytes are processed chunk by chunk, as they are read, and what is not used yet waits for the
next chunk. Where the chunks end does not matter, up to the first goodbye: the service, the answers and
what waits are those of all bytes processed at once. This holds as long as no line is so long that it
may be refused before it has ended.
-/

namespace BlockCache.Session

/-- The session once more bytes have arrived. -/
def extend (s : Session) (more : Bytes) : Session := { s with arrived := s.arrived ++ more }

/-- The first line, or what there is of it if it has not ended, is not too long: with its carriage return
alone it is still no longer than an unfinished line may be. -/
def ShortLine (arrived : Bytes) : Prop :=
  match Bytes.splitLine arrived with
  | some (line, _) => line.length < maxLineLength
  | none => arrived.length ≤ maxLineLength

/-- One command, or one line that is none, takes `s` to `t`. A goodbye leads nowhere. -/
inductive Next (s : Session) : Session → Prop where
  | refused {e : RequestError} : s.skip.discard = 0 → Reading.ofBytes s.skip.arrived = .refused e →
      Next s ⟨afterLine s.skip.arrived, e.blockLength⟩
  | complete {request : Request} {consumed : Nat} : s.skip.discard = 0 →
      Reading.ofBytes s.skip.arrived = .complete request consumed → request ≠ .quit →
      Next s { s.skip with arrived := s.skip.arrived.drop consumed }

/-- Wherever processing stands at the start of a command, the line there is not too long. -/
def ShortLines (s : Session) : Prop :=
  ∀ t : Session, Relation.ReflTransGen Next s t → t.skip.discard = 0 → ShortLine t.skip.arrived

theorem ShortLines.here {s : Session} (short : s.ShortLines) (ready : s.skip.discard = 0) : ShortLine s.skip.arrived :=
  short s .refl ready

theorem ShortLines.next {s t : Session} (short : s.ShortLines) (step : s.Next t) : t.ShortLines :=
  fun u rest => short u (.head step rest)

theorem ShortLines.path {s t : Session} (short : s.ShortLines) (steps : Relation.ReflTransGen Next s t) :
    t.ShortLines :=
  fun u rest => short u (steps.trans rest)

/-- What becomes of an outcome once more bytes have arrived: after a goodbye they are left alone. -/
def Outcome.resume (o : Outcome) (more : Bytes) : Outcome :=
  if o.quit then { o with session := o.session.extend more }
  else processAfter o.answers.reverse o.service (o.session.extend more)

/-- What became of chunks that were processed one after the other. -/
structure Exchange where
  service : Service
  session : Session
  /-- The bytes sent, those for one chunk after those for the chunk before. -/
  output : Bytes
  quit : Bool
  /-- The chunks after the goodbye. -/
  unread : Bytes

/-- What became of one chunk, when no other is processed after it. -/
def Outcome.exchange (o : Outcome) (unread : Bytes) : Exchange := ⟨o.service, o.session, o.output, o.quit, unread⟩

/-- The exchange, with bytes sent before it. -/
def Exchange.after (x : Exchange) (sent : Bytes) : Exchange := { x with output := sent ++ x.output }

/-- Processes chunks one after the other, up to the first goodbye. -/
def processChunks (service : Service) (s : Session) : List Bytes → Exchange
  | [] => ⟨service, s, [], false, []⟩
  | chunk :: chunks =>
    let o := process service (s.extend chunk)
    if o.quit then o.exchange chunks.flatten else (processChunks o.service o.session chunks).after o.output

/-- Two ways to cut the same bytes lead to the same. After a goodbye, the bytes that were never read count
as those that are never used. -/
structure Exchange.Agrees (x y : Exchange) : Prop where
  service : x.service = y.service
  output : x.output = y.output
  quit : x.quit = y.quit
  unused : x.session.extend x.unread = y.session.extend y.unread
  session : x.quit = false → x.session = y.session

section Skip

variable (s : Session) (more : Bytes)

theorem extend_extend (rest : Bytes) : (s.extend more).extend rest = s.extend (more ++ rest) := by
  rw [extend, extend, extend, List.append_assoc]

/-- Bytes to be dropped are dropped alike, whether they arrive at once or not. -/
theorem skip_extend : (s.extend more).skip = (s.skip.extend more).skip := by
  obtain ⟨arrived, discard⟩ := s
  by_cases none_left : discard = 0
  · simp [skip, extend, none_left]
  · by_cases enough : discard ≤ arrived.length
    · simp [skip, extend, none_left, List.drop_append_of_le_length enough, Nat.sub_eq_zero_of_le enough,
        Nat.sub_eq_zero_of_le (Nat.le_add_right_of_le enough)]
    · have all : arrived.drop discard = [] := List.drop_eq_nil_of_le (Nat.le_of_not_le enough)
      have some_left : discard - arrived.length ≠ 0 := by omega
      simp [skip, extend, none_left, some_left, all, List.drop_append, Nat.sub_sub]

theorem skip_of_discard {s : Session} (none_left : s.discard = 0) : s.skip = s := if_pos none_left

theorem skip_skip : s.skip.skip = s.skip := by
  have := skip_extend s []
  simpa [extend] using this.symm

end Skip

section Steps

variable {answers : List (List Reply)} {service : Service} {s : Session}

theorem processAfter_of_discard (left : 0 < s.skip.discard) :
    processAfter answers service s = ⟨service, s.skip, answers.reverse, false⟩ := by
  rw [processAfter, if_pos left]

theorem processAfter_of_needMore (ready : s.skip.discard = 0) (read : Reading.ofBytes s.skip.arrived = .needMore) :
    processAfter answers service s = ⟨service, s.skip, answers.reverse, false⟩ := by
  rw [processAfter, if_neg (by omega)]
  split <;> simp_all

theorem processAfter_of_refused (ready : s.skip.discard = 0) {e : RequestError}
    (read : Reading.ofBytes s.skip.arrived = .refused e) : processAfter answers service s =
      processAfter ([e.reply] :: answers)
        { service with metrics.protocolErrors := service.metrics.protocolErrors + 1 }
        ⟨afterLine s.skip.arrived, e.blockLength⟩ := by
  rw [processAfter, if_neg (by omega)]
  split <;> simp_all

theorem processAfter_of_quit (ready : s.skip.discard = 0) {consumed : Nat}
    (read : Reading.ofBytes s.skip.arrived = .complete .quit consumed) :
    processAfter answers service s = ⟨service, s.skip, answers.reverse, true⟩ := by
  rw [processAfter, if_neg (by omega)]
  split <;> simp_all

theorem processAfter_of_complete (ready : s.skip.discard = 0) {request : Request} {consumed : Nat}
    (read : Reading.ofBytes s.skip.arrived = .complete request consumed) (stays : request ≠ .quit) :
    processAfter answers service s =
      processAfter (if request.isNoreply then answers else (service.execute request).1 :: answers)
        (service.execute request).2 { s.skip with arrived := s.skip.arrived.drop consumed } := by
  rw [processAfter, if_neg (by omega)]
  split <;> simp_all

/-- Bytes that are dropped first anyway may have been dropped before. -/
theorem processAfter_skip : processAfter answers service s.skip = processAfter answers service s := by
  rw [processAfter, processAfter, skip_skip]

end Steps

section Extend

variable {s t : Session} {more : Bytes}

/-- A short line that is refused has ended. -/
theorem splitLine_of_refused {arrived : Bytes} {e : RequestError} (short : ShortLine (arrived ++ more))
    (read : Reading.ofBytes arrived = .refused e) : ∃ line rest, Bytes.splitLine arrived = some (line, rest) := by
  rcases cut : Bytes.splitLine arrived with - | ⟨line, rest⟩
  · rw [Reading.ofBytes_of_splitLine_eq_none cut] at read
    have tooLong : maxLineLength < arrived.length := Nat.lt_of_not_le fun fits => by
      rw [if_neg (Nat.not_lt.2 fits)] at read
      cases read
    unfold ShortLine at short
    split at short
    · rename_i line rest later
      have := Bytes.length_le_of_splitLine_eq_none cut later
      omega
    · rw [List.length_append] at short
      omega
  · exact ⟨line, rest, rfl⟩

theorem afterLine_append {arrived line rest : Bytes} (cut : Bytes.splitLine arrived = some (line, rest))
    (more : Bytes) : afterLine (arrived ++ more) = afterLine arrived ++ more := by
  rw [afterLine, Bytes.splitLine_append cut, afterLine, cut]

/-- Once everything to be dropped is dropped, more bytes join what has arrived. -/
theorem skip_extend_of_discard (ready : s.skip.discard = 0) (more : Bytes) :
    (s.extend more).skip = s.skip.extend more := by
  rw [skip_extend]
  exact skip_of_discard (s := s.skip.extend more) ready

/-- A short line that is refused is refused when more has arrived. -/
theorem refused_extend {e : RequestError} (short : (s.extend more).ShortLines) (ready : s.skip.discard = 0)
    (read : Reading.ofBytes s.skip.arrived = .refused e) :
    (s.extend more).skip.discard = 0 ∧ Reading.ofBytes (s.extend more).skip.arrived = .refused e ∧
      afterLine (s.extend more).skip.arrived = afterLine s.skip.arrived ++ more := by
  have joined := skip_extend_of_discard ready more
  have here := short.here (by rwa [joined])
  rw [joined] at here ⊢
  obtain ⟨line, rest, cut⟩ := splitLine_of_refused here read
  exact ⟨ready, (Reading.ofBytes_append cut (by simp [read]) more).trans read, afterLine_append cut more⟩

/-- A request that is complete is the same when more has arrived. -/
theorem complete_extend {request : Request} {consumed : Nat} (more : Bytes) (ready : s.skip.discard = 0)
    (read : Reading.ofBytes s.skip.arrived = .complete request consumed) :
    (s.extend more).skip.discard = 0 ∧ Reading.ofBytes (s.extend more).skip.arrived = .complete request consumed ∧
      { (s.extend more).skip with arrived := (s.extend more).skip.arrived.drop consumed } =
        extend { s.skip with arrived := s.skip.arrived.drop consumed } more := by
  obtain ⟨line, rest, cut⟩ := Reading.splitLine_of_complete read
  have dropped : (s.skip.arrived ++ more).drop consumed = s.skip.arrived.drop consumed ++ more :=
    List.drop_append_of_le_length (Reading.consumed_le read)
  rw [skip_extend_of_discard ready]
  exact ⟨ready, (Reading.ofBytes_append cut (by simp [read]) more).trans read, congrArg (mk · _) dropped⟩

/-- Processing what has arrived, and then what arrives later, is processing it all at once. -/
theorem processAfter_extend {answers : List (List Reply)} {service : Service} (short : (s.extend more).ShortLines) :
    processAfter answers service (s.extend more) = (processAfter answers service s).resume more := by
  fun_induction processAfter answers service s with
  | case1 | case2 =>
    -- nothing was read, so everything is still there
    rw [Outcome.resume, if_neg Bool.false_ne_true, List.reverse_reverse, ← processAfter_skip, skip_extend,
      processAfter_skip]
  | case3 answers service s left e read ih =>
    obtain ⟨ready, again, after⟩ := refused_extend short (Nat.eq_zero_of_not_pos left) read
    have step := short.next (.refused ready again)
    rw [processAfter_of_refused ready again]
    rw [after] at step ⊢
    exact ih step
  | case4 answers service s left consumed read =>
    have none_left := Nat.eq_zero_of_not_pos left
    obtain ⟨ready, again, -⟩ := complete_extend more none_left read
    rw [processAfter_of_quit ready again, skip_extend_of_discard none_left]
    rfl
  | case5 answers service s left request consumed read stays replies service' executed ih =>
    obtain ⟨ready, again, after⟩ := complete_extend more (Nat.eq_zero_of_not_pos left) read
    have step := short.next (.complete ready again stays)
    rw [processAfter_of_complete ready again stays, executed]
    rw [after] at step ⊢
    exact ih step

/-- What is left without a goodbye is reached command by command. -/
theorem reaches_processAfter {answers : List (List Reply)} {service : Service}
    (stays : (processAfter answers service s).quit = false) :
    ∃ t, Relation.ReflTransGen Next s t ∧ (processAfter answers service s).session = t.skip := by
  fun_induction processAfter answers service s with
  | case1 | case2 => exact ⟨_, .refl, rfl⟩
  | case3 answers service s left e read ih =>
    obtain ⟨t, steps, same⟩ := ih stays
    exact ⟨t, .head (.refused (Nat.eq_zero_of_not_pos left) read) steps, same⟩
  | case4 => cases stays
  | case5 answers service s left request consumed read others replies service' executed ih =>
    obtain ⟨t, steps, same⟩ := ih stays
    exact ⟨t, .head (.complete (Nat.eq_zero_of_not_pos left) read others) steps, same⟩

theorem Next.extend (short : (s.extend more).ShortLines) (step : s.Next t) : (s.extend more).Next (t.extend more) := by
  cases step with
  | refused ready read =>
    obtain ⟨ready, again, after⟩ := refused_extend short ready read
    have step := Next.refused ready again
    rwa [after] at step
  | complete ready read stays =>
    obtain ⟨ready, again, after⟩ := complete_extend more ready read
    have step := Next.complete ready again stays
    rwa [after] at step

/-- The same commands are met when more has arrived. -/
theorem reaches_extend (short : (s.extend more).ShortLines) (steps : Relation.ReflTransGen Next s t) :
    Relation.ReflTransGen Next (s.extend more) (t.extend more) := by
  induction steps with
  | refl => exact .refl
  | tail _ step ih => exact ih.tail (step.extend (short.path ih))

theorem ShortLines.of_skip_eq (short : s.ShortLines) (same : t.skip = s.skip) : t.ShortLines := by
  intro u steps ready
  rcases steps.cases_head with rfl | ⟨v, step, rest⟩
  · rw [same] at ready ⊢
    exact short.here ready
  · refine short u (.head ?_ rest) ready
    cases step with
    | refused ready read =>
      rw [same] at ready read ⊢
      exact .refused ready read
    | complete ready read stays =>
      rw [same] at ready read ⊢
      exact .complete ready read stays

/-- What is left has short lines, too. -/
theorem ShortLines.processAfter {answers : List (List Reply)} {service : Service} (short : (s.extend more).ShortLines)
    (stays : (processAfter answers service s).quit = false) :
    ((processAfter answers service s).session.extend more).ShortLines := by
  obtain ⟨t, steps, same⟩ := reaches_processAfter stays
  refine (short.path (reaches_extend short steps)).of_skip_eq ?_
  rw [same, ← skip_extend]

end Extend

section Answers

/-- The outcome, with answers given before it. -/
def Outcome.after (o : Outcome) (before : List (List Reply)) : Outcome := { o with answers := before ++ o.answers }

theorem Outcome.output_after (o : Outcome) (before : List (List Reply)) :
    (o.after before).output = Reply.renderAll before.flatten ++ o.output := by
  rw [after, output, output, Reply.renderAll, Reply.renderAll, Reply.renderAll, List.flatten_append,
    List.flatMap_append]

theorem processAfter_append (answers before : List (List Reply)) (service : Service) (s : Session) :
    processAfter (answers ++ before) service s = (processAfter answers service s).after before.reverse := by
  fun_induction processAfter answers service s with
  | case1 answers service s left =>
    rw [processAfter_of_discard left, List.reverse_append]
    rfl
  | case2 answers service s left read =>
    rw [processAfter_of_needMore (Nat.eq_zero_of_not_pos left) read, List.reverse_append]
    rfl
  | case3 answers service s left e read ih =>
    rw [processAfter_of_refused (Nat.eq_zero_of_not_pos left) read]
    exact ih
  | case4 answers service s left consumed read =>
    rw [processAfter_of_quit (Nat.eq_zero_of_not_pos left) read, List.reverse_append]
    rfl
  | case5 answers service s left request consumed read stays replies service' executed ih =>
    have joined : (if request.isNoreply then answers ++ before else replies :: (answers ++ before)) =
        (if request.isNoreply then answers else replies :: answers) ++ before := by
      split <;> rfl
    rw [processAfter_of_complete (Nat.eq_zero_of_not_pos left) read stays, executed, joined]
    exact ih

/-- Answers given before change nothing else. -/
theorem processAfter_eq (answers : List (List Reply)) (service : Service) (s : Session) :
    processAfter answers service s = (process service s).after answers.reverse :=
  processAfter_append [] answers service s

end Answers

section Short

variable {s : Session}

theorem shortLine_of_length_le {arrived : Bytes} (fits : arrived.length ≤ maxLineLength) : ShortLine arrived := by
  unfold ShortLine
  split
  · rename_i cut
    rw [Bytes.splitLine_eq_some cut, List.length_append, List.length_append, Bytes.crlf, List.length_cons] at fits
    omega
  · exact fits

theorem Next.length_le {t : Session} (step : s.Next t) : t.arrived.length ≤ s.arrived.length := by
  refine Nat.le_trans ?_ s.length_skip_le
  cases step with
  | refused _ read => exact Nat.le_of_lt (length_afterLine_lt read)
  | complete _ read => exact Nat.le_of_lt (length_drop_consumed_lt read)

theorem length_le_of_reaches {t : Session} (steps : Relation.ReflTransGen Next s t) :
    t.arrived.length ≤ s.arrived.length := by
  induction steps with
  | refl => exact Nat.le_refl _
  | tail _ step ih => exact Nat.le_trans step.length_le ih

/-- Where no more has arrived than an unfinished line may hold, no line is too long. -/
theorem shortLines_of_length_le (fits : s.arrived.length ≤ maxLineLength) : s.ShortLines := fun t steps _ =>
  shortLine_of_length_le (Nat.le_trans t.length_skip_le (Nat.le_trans (length_le_of_reaches steps) fits))

end Short

section Chunks

variable {service : Service} {s : Session} {first second chunks : List Bytes}

theorem Exchange.Agrees.symm {x y : Exchange} (agrees : x.Agrees y) : y.Agrees x where
  service := agrees.service.symm
  output := agrees.output.symm
  quit := agrees.quit.symm
  unused := agrees.unused.symm
  session stays := (agrees.session (agrees.quit.trans stays)).symm

theorem Exchange.Agrees.trans {x y z : Exchange} (agrees : x.Agrees y) (others : y.Agrees z) : x.Agrees z where
  service := agrees.service.trans others.service
  output := agrees.output.trans others.output
  quit := agrees.quit.trans others.quit
  unused := agrees.unused.trans others.unused
  session stays := (agrees.session stays).trans (others.session (agrees.quit.symm.trans stays))

theorem extend_nil (s : Session) : s.extend [] = s := by
  rw [extend, List.append_nil]

theorem processChunks_of_quit {chunk : Bytes} (quits : (process service (s.extend chunk)).quit = true) :
    processChunks service s (chunk :: chunks) = (process service (s.extend chunk)).exchange chunks.flatten :=
  if_pos quits

theorem processChunks_of_stays {chunk : Bytes} (stays : (process service (s.extend chunk)).quit = false) :
    processChunks service s (chunk :: chunks) =
      (processChunks (process service (s.extend chunk)).service (process service (s.extend chunk)).session chunks).after
        (process service (s.extend chunk)).output :=
  if_neg (Bool.not_eq_true _ ▸ stays)

theorem processChunks_one (service : Service) (s : Session) (chunk : Bytes) :
    processChunks service s [chunk] = (process service (s.extend chunk)).exchange [] := by
  cases quits : (process service (s.extend chunk)).quit with
  | true => exact processChunks_of_quit quits
  | false => simp [processChunks, Exchange.after, Outcome.exchange, quits]

/-- Chunks, of which there is at least one, are processed like all their bytes at once. -/
theorem processChunks_agrees_one (service : Service) (some_read : chunks ≠ [])
    (short : (s.extend chunks.flatten).ShortLines) :
    (processChunks service s chunks).Agrees (processChunks service s [chunks.flatten]) := by
  induction chunks generalizing service s with
  | nil => exact absurd rfl some_read
  | cons chunk chunks ih =>
    rcases chunks with - | ⟨next, chunks⟩
    · rw [List.flatten_singleton]
      exact ⟨rfl, rfl, rfl, rfl, fun _ => rfl⟩
    generalize later : next :: chunks = rest at *
    have some_later : rest ≠ [] := later ▸ List.cons_ne_nil _ _
    rw [List.flatten_cons, ← extend_extend] at short
    have whole : process service ((s.extend chunk).extend rest.flatten) =
        (process service (s.extend chunk)).resume rest.flatten := processAfter_extend short
    rw [processChunks_one, List.flatten_cons, ← extend_extend, whole]
    cases quits : (process service (s.extend chunk)).quit with
    | true =>
      rw [processChunks_of_quit quits, Outcome.resume, if_pos quits]
      exact ⟨rfl, rfl, rfl, (extend_nil _).symm, fun stays => nomatch quits.symm.trans stays⟩
    | false =>
      have agrees := ih (process service (s.extend chunk)).service some_later (short.processAfter quits)
      rw [processChunks_one] at agrees
      rw [processChunks_of_stays quits, Outcome.resume, quits, if_neg Bool.false_ne_true, processAfter_eq,
        List.reverse_reverse]
      exact {
        service := agrees.service
        output := by
          rw [Outcome.exchange, Outcome.output_after]
          exact congrArg (_ ++ ·) agrees.output
        quit := agrees.quit
        unused := agrees.unused
        session := agrees.session }

/-- Where the chunks end does not matter, and one chunk would do. -/
theorem processChunks_agrees (same : first.flatten = second.flatten) (some_first : first ≠ []) (some_second : second ≠ [])
    (short : (s.extend first.flatten).ShortLines) :
    (processChunks service s first).Agrees (processChunks service s second) ∧
      (processChunks service s first).Agrees ((process service (s.extend first.flatten)).exchange []) := by
  have one := processChunks_agrees_one service some_first short
  have other := processChunks_agrees_one service some_second (same ▸ short)
  rw [← same] at other
  exact ⟨one.trans other.symm, processChunks_one service s _ ▸ one⟩

/-- A service with an empty map store. -/
def emptyService (clock : Int) : Service where
  cache := { store := .memory (.new 10 1000 .lru), started := 0 }
  clock
  processId := 1

/-- A value whose line, data and line ends are all cut. -/
theorem processChunks_agrees_cut_value :
    let stream := Bytes.ofString "set k 0 0 2\r\nab\r\nget k\r\nquit\r\nget k\r\n"
    let cut := [stream.take 3, (stream.drop 3).take 9, (stream.drop 12).take 2, (stream.drop 14).take 2, stream.drop 16]
    (processChunks (emptyService 0) {} cut).Agrees (processChunks (emptyService 0) {} (stream.map fun b => [b])) ∧
      (processChunks (emptyService 0) {} cut).Agrees ((process (emptyService 0) ⟨stream, 0⟩).exchange []) :=
  processChunks_agrees (s := {}) (by decide) (by decide) (by decide) (shortLines_of_length_le (by decide))

end Chunks
end BlockCache.Session

import BlockCache.Proofs.Session.Chunks

/-!
# Long lines

A line may have any length. What counts is how much of it has arrived while its end has not: each time a
chunk leaves more than `maxLineLength` bytes without a line end, these bytes are answered as a line of
their own and dropped, and what follows of the line begins another one. So the same line is carried out
or not as it arrives, and what follows a refusal is read as a command, though it is the end of a line
that was refused.
-/

namespace BlockCache

namespace Bytes

/-- Bytes without a line end have none at their back. -/
theorem splitLine_eq_none_of_append {front back : Bytes} (uncut : splitLine (front ++ back) = none) :
    splitLine back = none := by
  rcases cut : splitLine back with - | ⟨line, rest⟩
  · rfl
  · refine absurd uncut ?_
    rw [splitLine_eq_some cut, ← List.append_assoc, ← List.append_assoc]
    exact splitLineFrom_ne_none [] (front ++ line) rest

/-- Bytes without a line end have none at their front. -/
theorem splitLine_eq_none_of_prefix {front back : Bytes} (uncut : splitLine (front ++ back) = none) :
    splitLine front = none := by
  rcases cut : splitLine front with - | ⟨line, rest⟩
  · rfl
  · rw [splitLine_append cut] at uncut
    cases uncut

/-- A line has not ended before its line feed. -/
theorem splitLine_eq_none_of_length_le {front back line rest : Bytes}
    (cut : splitLine (front ++ back) = some (line, rest)) (before : front.length ≤ line.length + 1) :
    splitLine front = none := by
  rcases early : splitLine front with - | ⟨line', rest'⟩
  · rfl
  · have same := (splitLine_append early back).symm.trans cut
    obtain ⟨rfl, -⟩ := Prod.mk.inj (Option.some.inj same)
    rw [splitLine_eq_some early, List.length_append, List.length_append, crlf, List.length_cons, List.length_singleton]
      at before
    omega

end Bytes

namespace Session

/-- An unfinished line as it arrives. -/
structure Unfinished where
  /-- The bytes that wait for the end of the line. -/
  kept : Bytes
  /-- How often too many bytes waited. -/
  refusals : Nat
deriving DecidableEq

namespace Unfinished

/-- One more chunk in which the line does not end. -/
def take (u : Unfinished) (chunk : Bytes) : Unfinished :=
  if maxLineLength < (u.kept ++ chunk).length then ⟨[], u.refusals + 1⟩ else ⟨u.kept ++ chunk, u.refusals⟩

/-- The line after chunks in which it does not end. -/
def takeAll (kept : Bytes) (chunks : List Bytes) : Unfinished := chunks.foldl take ⟨kept, 0⟩

theorem refusals_le_take (u : Unfinished) (chunk : Bytes) : u.refusals ≤ (u.take chunk).refusals := by
  unfold take
  split <;> simp

theorem refusals_le_foldl_take (u : Unfinished) (chunks : List Bytes) :
    u.refusals ≤ (chunks.foldl take u).refusals := by
  induction chunks generalizing u with
  | nil => exact Nat.le_refl _
  | cons chunk chunks ih => exact Nat.le_trans (u.refusals_le_take chunk) (ih (u.take chunk))

/-- What has become of a line since `u`, when `all` has arrived: the bytes `lost` were refused, and they
were more than an unfinished line may have. -/
structure Since (u : Unfinished) (all : Bytes) (v : Unfinished) : Prop where
  fits : v.kept.length ≤ maxLineLength
  kept_or_lost : (v.refusals = u.refusals ∧ all = v.kept) ∨
    (u.refusals < v.refusals ∧ ∃ lost, maxLineLength < lost.length ∧ all = lost ++ v.kept)

theorem Since.take {u v : Unfinished} {all : Bytes} (since : u.Since all v) (chunk : Bytes) :
    u.Since (all ++ chunk) (v.take chunk) := by
  unfold Unfinished.take
  split
  · rename_i many
    refine ⟨Nat.zero_le _, .inr ?_⟩
    obtain ⟨same, rfl⟩ | ⟨more, lost, long, rfl⟩ := since.kept_or_lost
    · exact ⟨by dsimp only; omega, _, many, (List.append_nil _).symm⟩
    · refine ⟨by dsimp only; omega, lost ++ (v.kept ++ chunk), ?_, by simp⟩
      rw [List.length_append]
      omega
  · rename_i few
    refine ⟨Nat.le_of_not_lt few, ?_⟩
    obtain ⟨same, rfl⟩ | ⟨more, lost, long, rfl⟩ := since.kept_or_lost
    · exact .inl ⟨same, rfl⟩
    · exact .inr ⟨more, lost, long, List.append_assoc ..⟩

theorem since_takeAll {kept : Bytes} (fits : kept.length ≤ maxLineLength) (chunks : List Bytes) :
    Since ⟨kept, 0⟩ (kept ++ chunks.flatten) (takeAll kept chunks) := by
  suffices h : ∀ (u v : Unfinished) all, u.Since all v → u.Since (all ++ chunks.flatten) (chunks.foldl take v) from
    h _ _ _ ⟨fits, .inl ⟨rfl, rfl⟩⟩
  induction chunks with
  | nil => simp
  | cons chunk chunks ih =>
    intro u v all since
    rw [List.flatten_cons, ← List.append_assoc]
    exact ih u (v.take chunk) _ (since.take chunk)

end Unfinished

/-- The service once more lines have been refused. -/
def refusing (service : Service) (refusals : Nat) : Service :=
  { service with metrics.protocolErrors := service.metrics.protocolErrors + refusals }

section Arrival

variable {service : Service} {kept : Bytes}

theorem process_nil (service : Service) : process service {} = ⟨service, {}, [], false⟩ :=
  processAfter_of_needMore rfl ofBytes_nil

/-- Without a line end in it, what has arrived is kept or refused as a whole. -/
theorem process_of_splitLine_eq_none (uncut : Bytes.splitLine kept = none) : process service ⟨kept, 0⟩ =
    if maxLineLength < kept.length then ⟨refusing service 1, {}, [[.error]], false⟩
    else ⟨service, ⟨kept, 0⟩, [], false⟩ := by
  have read := Reading.ofBytes_of_splitLine_eq_none uncut
  split
  · rename_i many
    rw [if_pos many] at read
    have none_left : afterLine kept = [] := by rw [afterLine, uncut]
    rw [process, processAfter_of_refused (s := ⟨kept, 0⟩) rfl read]
    change processAfter [[.error]] (refusing service 1) ⟨afterLine kept, 0⟩ = _
    rw [none_left, processAfter_eq]
    exact congrArg (Outcome.after · [[.error]]) (process_nil _)
  · rename_i few
    rw [if_neg few] at read
    exact processAfter_of_needMore (s := ⟨kept, 0⟩) rfl read

theorem processChunks_append {s : Session} (chunks more : List Bytes)
    (stays : (processChunks service s chunks).quit = false) : processChunks service s (chunks ++ more) =
      (processChunks (processChunks service s chunks).service (processChunks service s chunks).session more).after
        (processChunks service s chunks).output := by
  induction chunks generalizing service s with
  | nil => rfl
  | cons chunk chunks ih =>
    rw [List.cons_append]
    cases quits : (process service (s.extend chunk)).quit with
    | true =>
      rw [processChunks_of_quit quits] at stays
      exact absurd (quits.symm.trans stays) Bool.noConfusion
    | false =>
      rw [processChunks_of_stays quits] at stays ⊢
      rw [processChunks_of_stays quits, ih stays]
      simp [Exchange.after]

/-- What is sent when lines were refused. -/
def refusals (count : Nat) : Bytes := Reply.renderAll (List.replicate count .error)

theorem refusals_add (a b : Nat) : refusals (a + b) = refusals a ++ refusals b := by
  rw [refusals, refusals, refusals, ← List.replicate_append_replicate, Reply.renderAll, List.flatMap_append]
  rfl

/-- A chunk in which the line does not end. -/
theorem process_take (service : Service) {u : Unfinished} {chunk : Bytes}
    (uncut : Bytes.splitLine (u.kept ++ chunk) = none) :
    process (refusing service u.refusals) (extend ⟨u.kept, 0⟩ chunk) =
      ⟨refusing service (u.take chunk).refusals, ⟨(u.take chunk).kept, 0⟩,
        List.replicate ((u.take chunk).refusals - u.refusals) [.error], false⟩ := by
  change process _ ⟨u.kept ++ chunk, 0⟩ = _
  rw [process_of_splitLine_eq_none uncut, Unfinished.take]
  split <;> simp [refusing, Nat.add_assoc]

/-- Chunks in which a line does not end. -/
theorem processChunks_of_splitLine_eq_none (service : Service) (chunks : List Bytes) (u : Unfinished)
    (uncut : Bytes.splitLine (u.kept ++ chunks.flatten) = none) :
    let v := chunks.foldl Unfinished.take u
    processChunks (refusing service u.refusals) ⟨u.kept, 0⟩ chunks =
      ⟨refusing service v.refusals, ⟨v.kept, 0⟩, refusals (v.refusals - u.refusals), false, []⟩ := by
  induction chunks generalizing u with
  | nil => simp [processChunks, refusals, Reply.renderAll]
  | cons chunk chunks ih =>
    rw [List.flatten_cons, ← List.append_assoc] at uncut
    have first := process_take service (Bytes.splitLine_eq_none_of_prefix uncut)
    have later : Bytes.splitLine ((u.take chunk).kept ++ chunks.flatten) = none := by
      unfold Unfinished.take
      split
      · exact Bytes.splitLine_eq_none_of_append uncut
      · exact uncut
    have rest := ih (u.take chunk) later
    have sent : (List.replicate ((u.take chunk).refusals - u.refusals) [Reply.error]).flatten =
        List.replicate ((u.take chunk).refusals - u.refusals) .error := by
      rw [List.flatten_replicate_singleton]
    have grows := u.refusals_le_take chunk
    have grows_later := (u.take chunk).refusals_le_foldl_take chunks
    rw [processChunks_of_stays (by rw [first]), first, rest, Exchange.after, Outcome.output, sent]
    dsimp only
    rw [← refusals, ← refusals_add, List.foldl_cons]
    congr
    omega

/-- A line that ends in the chunk `last`: what was kept of it before is read together with `last`. If no more than
an unfinished line may have had arrived before, this is the line, whatever its length. If more had arrived, those
bytes were refused, and what is read begins in the midst of the line. -/
theorem processChunks_line {service : Service} {s : Session} {chunks : List Bytes} {last line rest : Bytes}
    (ready : s.discard = 0) (fits : s.arrived.length ≤ maxLineLength)
    (cut : Bytes.splitLine (s.arrived ++ chunks.flatten ++ last) = some (line, rest))
    (before : (s.arrived ++ chunks.flatten).length ≤ line.length + 1) :
    let u := Unfinished.takeAll s.arrived chunks
    processChunks service s (chunks ++ [last]) =
        ((process (refusing service u.refusals) ⟨u.kept ++ last, 0⟩).exchange []).after (refusals u.refusals) ∧
      ((s.arrived ++ chunks.flatten).length ≤ maxLineLength →
        u.refusals = 0 ∧ u.kept ++ last = line ++ Bytes.crlf ++ rest) ∧
      (maxLineLength < (s.arrived ++ chunks.flatten).length →
        0 < u.refusals ∧ ∃ lost, maxLineLength < lost.length ∧ lost.length ≤ line.length + 1 ∧
          lost ++ (u.kept ++ last) = line ++ Bytes.crlf ++ rest) := by
  obtain ⟨arrived, discard⟩ := s
  obtain rfl : discard = 0 := ready
  have uncut := Bytes.splitLine_eq_none_of_length_le cut before
  have first := processChunks_of_splitLine_eq_none service chunks ⟨arrived, 0⟩ uncut
  have since := Unfinished.since_takeAll fits chunks
  have whole := Bytes.splitLine_eq_some cut
  intro u
  change Unfinished.Since ⟨arrived, 0⟩ (arrived ++ chunks.flatten) u at since
  dsimp only at whole before ⊢
  refine ⟨?_, fun few => ?_, fun many => ?_⟩
  · change processChunks service ⟨arrived, 0⟩ chunks =
      ⟨refusing service u.refusals, ⟨u.kept, 0⟩, refusals u.refusals, false, []⟩
      at first
    rw [processChunks_append _ _ (by rw [first]), first, processChunks_one]
    rfl
  · obtain ⟨same, kept⟩ | ⟨-, lost, long, all⟩ := since.kept_or_lost
    · exact ⟨same, kept ▸ whole⟩
    · rw [all, List.length_append] at few
      omega
  · obtain ⟨-, kept⟩ | ⟨more, lost, long, all⟩ := since.kept_or_lost
    · exact absurd since.fits (by rw [← kept]; omega)
    · refine ⟨more, lost, long, ?_, ?_⟩
      · rw [all, List.length_append] at before
        omega
      · rw [← List.append_assoc, ← all]
        exact whole

/-- A line of `maxLineLength` bytes. -/
def longVersion : Bytes := Bytes.ofString "version" ++ List.replicate 2041 32

/-- When its line feed comes late, the line is refused, and the line feed is read on its own. -/
theorem processChunks_line_version :
    let u := Unfinished.takeAll [] [longVersion ++ [13]]
    u = ⟨[], 1⟩ ∧ processChunks (emptyService 0) {} ([longVersion ++ [13]] ++ [[10]]) =
      ((process (refusing (emptyService 0) u.refusals) ⟨u.kept ++ [10], 0⟩).exchange []).after (refusals u.refusals) :=
  have line := @processChunks_line (emptyService 0) {} [longVersion ++ [13]] [10] longVersion [] rfl (by decide)
    (by decide +kernel) (by decide +kernel)
  ⟨by decide +kernel, line.1⟩

/-- Keys to read that do not fit an unfinished line. -/
def longGet : Bytes := Bytes.ofString "get" ++ (List.replicate 1023 (Bytes.ofString " k")).flatten

/-- Whether a line is carried out depends on the chunks, and the end of a line that was refused can be carried out as
a command. -/
theorem line_cut_before_line_feed :
    longVersion.length = maxLineLength ∧
    (processChunks (emptyService 0) {} [longVersion ++ [13, 10]]).output = Reply.render (.version serverVersion) ∧
    (processChunks (emptyService 0) {} [longVersion ++ [13], [10]]).output = Reply.render .error ∧
    Reading.ofBytes (longGet ++ Bytes.ofString " flush_all\r\n") =
      .complete (.get (List.replicate 1023 ⟨Bytes.ofString "k"⟩ ++ [⟨Bytes.ofString "flush_all"⟩]) false) 2061 ∧
    (processChunks (emptyService 0) {} [longGet, Bytes.ofString " flush_all\r\n"]).output =
      Reply.render .error ++ Reply.render .ok := by
  decide +kernel

end Arrival
end Session
end BlockCache

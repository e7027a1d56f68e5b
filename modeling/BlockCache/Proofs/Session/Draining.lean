import BlockCache.Proofs.Service.Framing
import BlockCache.Proofs.Session.Chunks

/-!
# Rounds of processing

What has arrived is used up in rounds. A round drops what is to be dropped and reads one command; it then carries
the command out and takes its bytes, or it is the last one. Every round but the last takes a byte at least, so there
are no more rounds than bytes, and one. What is left in the end is the end of what had arrived: it starts with a
goodbye, or it is nothing that can be read yet.
-/

namespace BlockCache.Session

/-- What a round comes to. -/
inductive Turn where
  /-- Nothing can be done before more bytes arrive. -/
  | waits
  | quits
  /-- A command that takes up so many bytes, and what is left for the next round. -/
  | goes (command : Command) (taken : Nat) (next : Session)

/-- The bytes of the first line with its end, or of a line that has not ended. -/
def lineLength (arrived : Bytes) : Nat :=
  match Bytes.splitLine arrived with
  | some (line, _) => line.length + 2
  | none => arrived.length

/-- The bytes that a round drops before it reads. -/
def dropped (s : Session) : Nat := min s.discard s.arrived.length

def turn (s : Session) : Turn :=
  if 0 < s.skip.discard then .waits
  else match Reading.ofBytes s.skip.arrived with
    | .needMore => .waits
    | .refused e => .goes (.fault e) (lineLength s.skip.arrived) ⟨afterLine s.skip.arrived, e.blockLength⟩
    | .complete request consumed =>
      if request = .quit then .quits
      else .goes (.request request) consumed { s.skip with arrived := s.skip.arrived.drop consumed }

/-- At most `limit` rounds, after the given answers, latest first; `none` if they are not enough. -/
def rounds : (limit : Nat) → List (List Reply) → Service → Session → Option Outcome
  | 0, _, _, _ => none
  | limit + 1, answers, service, s =>
    match s.turn with
    | .waits => some ⟨service, s.skip, answers.reverse, false⟩
    | .quits => some ⟨service, s.skip, answers.reverse, true⟩
    | .goes command _ next =>
      rounds limit (if command.isAnswered then (service.carryOut command).1 :: answers else answers)
        (service.carryOut command).2 next

/-- Rounds one after the other: the bytes that each takes off the front, and the command that it carries out. -/
inductive Rounds : Session → List (Bytes × Command) → Session → Prop where
  | done (s : Session) : Rounds s [] s
  | round {s next t : Session} {command : Command} {taken : Nat} {later : List (Bytes × Command)} :
      s.turn = .goes command taken next → Rounds next later t →
      Rounds s ((s.arrived.take (s.dropped + taken), command) :: later) t

section Lines

variable (arrived : Bytes)

theorem afterLine_eq_drop : afterLine arrived = arrived.drop (lineLength arrived) := by
  rw [afterLine, lineLength]
  rcases cut : Bytes.splitLine arrived with - | ⟨line, rest⟩
  · exact (List.drop_length).symm
  · rw [Bytes.splitLine_eq_some cut]
    exact (List.drop_left' (by simp [Bytes.crlf])).symm

theorem lineLength_le : lineLength arrived ≤ arrived.length := by
  rw [lineLength]
  rcases cut : Bytes.splitLine arrived with - | ⟨line, rest⟩
  · exact Nat.le_refl _
  · rw [Bytes.splitLine_eq_some cut]
    simp [Bytes.crlf]

end Lines

section Steps

variable {s : Session}

theorem arrived_skip (s : Session) : s.skip.arrived = s.arrived.drop s.dropped := by
  rw [skip, dropped]
  split
  · rename_i none_left
    rw [none_left, Nat.zero_min, List.drop_zero]
  · rcases Nat.le_total s.discard s.arrived.length with some_stay | all_go
    · rw [Nat.min_eq_left some_stay]
    · rw [Nat.min_eq_right all_go, List.drop_length, List.drop_eq_nil_of_le all_go]

/-- What is still to be dropped was not there. -/
theorem arrived_skip_of_discard (left : 0 < s.skip.discard) : s.skip.arrived = [] := by
  rw [skip] at left ⊢
  split
  · rename_i none_left
    rw [if_pos none_left] at left
    omega
  · rename_i some_left
    rw [if_neg some_left] at left
    exact List.drop_eq_nil_of_le (by dsimp only at left; omega)

/-- A round that goes on reads a command, takes it up and leaves the rest. -/
theorem takes_of_goes {command : Command} {taken : Nat} {next : Session} (goes : s.turn = .goes command taken next) :
    0 < taken ∧ taken ≤ s.skip.arrived.length ∧ next.arrived = s.skip.arrived.drop taken := by
  rw [turn] at goes
  split at goes
  · cases goes
  · split at goes
    · cases goes
    · rename_i e read
      cases goes
      have shorter := length_afterLine_lt read
      have whole := lineLength_le s.skip.arrived
      rw [afterLine_eq_drop, List.length_drop] at shorter
      exact ⟨by omega, whole, afterLine_eq_drop _⟩
    · rename_i request consumed read
      split at goes <;> cases goes
      exact ⟨by have := Reading.two_le_consumed read; omega, Reading.consumed_le read, rfl⟩

/-- A round that goes on takes a byte at least off the front, and no more than have arrived. -/
theorem arrived_of_goes {command : Command} {taken : Nat} {next : Session} (goes : s.turn = .goes command taken next) :
    0 < taken ∧ s.dropped + taken ≤ s.arrived.length ∧ next.arrived = s.arrived.drop (s.dropped + taken) := by
  obtain ⟨positive, inside, left⟩ := takes_of_goes goes
  rw [arrived_skip, List.length_drop] at inside
  rw [arrived_skip, List.drop_drop] at left
  exact ⟨positive, by omega, left⟩

theorem waits_iff :
    s.turn = .waits ↔ 0 < s.skip.discard ∨ s.skip.discard = 0 ∧ Reading.ofBytes s.skip.arrived = .needMore := by
  rw [turn]
  split
  · simp_all
  · split
    · simp_all
    · simp_all
    · split <;> simp_all

theorem quits_iff :
    s.turn = .quits ↔ s.skip.discard = 0 ∧ ∃ consumed, Reading.ofBytes s.skip.arrived = .complete .quit consumed := by
  rw [turn]
  split
  · simp_all
    omega
  · split
    · simp_all
    · simp_all
    · split <;> simp_all

variable {answers : List (List Reply)} {service : Service}

theorem processAfter_of_waits (waits : s.turn = .waits) :
    processAfter answers service s = ⟨service, s.skip, answers.reverse, false⟩ := by
  rcases waits_iff.1 waits with left | ⟨ready, read⟩
  · exact processAfter_of_discard left
  · exact processAfter_of_needMore ready read

theorem processAfter_of_quits (quits : s.turn = .quits) :
    processAfter answers service s = ⟨service, s.skip, answers.reverse, true⟩ := by
  obtain ⟨ready, consumed, read⟩ := quits_iff.1 quits
  exact processAfter_of_quit ready read

theorem processAfter_of_goes {command : Command} {taken : Nat} {next : Session}
    (goes : s.turn = .goes command taken next) : processAfter answers service s =
      processAfter (if command.isAnswered then (service.carryOut command).1 :: answers else answers)
        (service.carryOut command).2 next := by
  rw [turn] at goes
  split at goes
  · cases goes
  · rename_i ready
    have ready := Nat.eq_zero_of_not_pos ready
    split at goes
    · cases goes
    · rename_i e read
      cases goes
      exact processAfter_of_refused ready read
    · rename_i request consumed read
      split at goes <;> cases goes
      rename_i stays
      rw [processAfter_of_complete ready read stays, Command.isAnswered]
      cases request.isNoreply <;> rfl

end Steps

section Run

variable {s t : Session} {answers : List (List Reply)} {service : Service}

/-- Where some number of rounds is enough, they are processing. -/
theorem processAfter_of_rounds {limit : Nat} {o : Outcome} (ended : rounds limit answers service s = some o) :
    processAfter answers service s = o := by
  induction limit generalizing answers service s with
  | zero => cases ended
  | succ limit ih =>
    rw [rounds] at ended
    split at ended
    · rename_i waits
      rw [processAfter_of_waits waits]
      exact Option.some.inj ended
    · rename_i quits
      rw [processAfter_of_quits quits]
      exact Option.some.inj ended
    · rename_i goes
      rw [processAfter_of_goes goes]
      exact ih ended

/-- The rounds take what has arrived apart, in order. -/
theorem Rounds.arrived_eq {made : List (Bytes × Command)} (rounds : Rounds s made t) :
    s.arrived = (made.map Prod.fst).flatten ++ t.arrived := by
  induction rounds with
  | done => rfl
  | round goes _ ih =>
    rw [List.map_cons, List.flatten_cons, List.append_assoc, ← ih, (arrived_of_goes goes).2.2, List.take_append_drop]

/-- One round more than there are bytes is enough. -/
theorem rounds_of_lt (answers : List (List Reply)) (service : Service) {limit : Nat} (enough : s.arrived.length < limit) :
    ∃ made t quit, Rounds s made t ∧ t.turn = (if quit then .quits else .waits) ∧
      rounds limit answers service s = some ⟨service.after (made.map Prod.snd), t.skip,
        answers.reverse ++ service.replies (made.map Prod.snd), quit⟩ := by
  induction limit generalizing answers service s with
  | zero => omega
  | succ limit ih =>
    rw [rounds]
    cases turned : s.turn with
    | waits => exact ⟨[], s, false, .done s, turned, by simp [Service.after, Service.replies]⟩
    | quits => exact ⟨[], s, true, .done s, turned, by simp [Service.after, Service.replies]⟩
    | goes command taken next =>
      obtain ⟨positive, inside, left⟩ := arrived_of_goes turned
      have fewer : next.arrived.length < limit := by
        rw [left, List.length_drop]
        omega
      obtain ⟨made, t, quit, later, last, ended⟩ := ih _ _ fewer
      refine ⟨_ :: made, t, quit, .round turned later, last, ended.trans ?_⟩
      rw [List.map_cons, Service.replies, Service.after, Service.after, List.foldl_cons]
      cases command.isAnswered <;> simp

end Run

/-- How processing uses up what has arrived. -/
structure Drains (service : Service) (s : Session) : Prop where
  /-- It returns: one round more than there are bytes is enough. -/
  returns : ∀ limit, s.arrived.length < limit → rounds limit [] service s = some (s.process service)
  /-- A round that does not return takes at least a byte off the front, and no more than there are. -/
  takes : ∀ command taken next, s.turn = .goes command taken next →
    0 < taken ∧ s.dropped + taken ≤ s.arrived.length ∧ next.arrived = s.arrived.drop (s.dropped + taken)
  /-- What was carried out was read from the front of what had arrived, and what is left is the end of it. -/
  drains : ∃ made rest, s.arrived = (made.map Prod.fst).flatten ++ rest ∧ (s.process service).session.arrived <:+ rest ∧
    (∃ t, Rounds s made t ∧ t.arrived = rest ∧ t.skip = (s.process service).session) ∧
    (s.process service).service = service.after (made.map Prod.snd) ∧
    (s.process service).answers = service.replies (made.map Prod.snd)
  /-- At a goodbye, it is left where it is. -/
  quits : (s.process service).quit = true → (s.process service).session.discard = 0 ∧
    ∃ consumed, Reading.ofBytes (s.process service).session.arrived = .complete .quit consumed
  /-- Otherwise there is nothing left that can be read before more bytes arrive. -/
  waits : (s.process service).quit = false →
    0 < (s.process service).session.discard ∧ (s.process service).session.arrived = [] ∨
    (s.process service).session.discard = 0 ∧ Reading.ofBytes (s.process service).session.arrived = .needMore

/-- Whatever has arrived and whatever the service, processing returns, takes every command off the front that it
carries out, and leaves nothing that it could use. -/
theorem process_drains (service : Service) (s : Session) : Drains service s := by
  obtain ⟨made, t, quit, made_rounds, last, ended⟩ := rounds_of_lt [] service (Nat.lt_succ_self s.arrived.length)
  have processed : s.process service = _ := processAfter_of_rounds ended
  have suffix : t.skip.arrived <:+ t.arrived := arrived_skip t ▸ List.drop_suffix _ _
  constructor
  · intro limit enough
    obtain ⟨_, _, _, -, -, returned⟩ := rounds_of_lt [] service enough
    exact returned.trans (congrArg some (processAfter_of_rounds returned).symm)
  · exact fun _ _ _ => arrived_of_goes
  · rw [processed]
    exact ⟨made, t.arrived, made_rounds.arrived_eq, suffix, ⟨t, made_rounds, rfl, rfl⟩, rfl, List.nil_append _⟩
  · rw [processed]
    rintro rfl
    exact quits_iff.1 last
  · rw [processed]
    rintro rfl
    exact (waits_iff.1 last).imp_left fun left => ⟨left, arrived_skip_of_discard left⟩

end BlockCache.Session

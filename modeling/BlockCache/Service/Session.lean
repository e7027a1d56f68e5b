import BlockCache.Service.Basic
import BlockCache.Wire.Reading

/-!
# Sessions

The bytes of one client on their way to the service. They arrive in chunks; `process` carries out
every request that is complete and keeps the rest. A line that is no request is answered and
dropped, and so is the data block that a storing request announced but may not bring.
-/

namespace BlockCache

/-- What has arrived from a client and is not yet used. -/
structure Session where
  arrived : Bytes := []
  /-- Bytes still to be dropped, before anything is read. -/
  discard : Nat := 0
deriving DecidableEq

/-- The reply to a line that is no request. -/
def RequestError.reply : RequestError → Reply
  | invalidCommand _ => .error
  | valueTooLarge _ => .serverError "object too large for cache"
  | e => .clientError e.message

/-- The length of the data block that follows a refused line, with its end; it is counted in 64 bits. -/
def RequestError.blockLength : RequestError → Nat
  | valueTooLarge length => min (length + 2) (UInt64.size - 1)
  | _ => 0

namespace Session

/-- Drops what has arrived of the bytes to be dropped. -/
def skip (s : Session) : Session :=
  if s.discard = 0 then s
  else { arrived := s.arrived.drop s.discard, discard := s.discard - s.arrived.length }

/-- What follows the first line; an unfinished line goes as a whole. -/
def afterLine (arrived : Bytes) : Bytes :=
  match Bytes.splitLine arrived with
  | some (_, rest) => rest
  | none => []

/-- What became of the bytes that had arrived. -/
structure Outcome where
  service : Service
  session : Session
  /-- The replies to each request that wants one and to each line that is none, in order. -/
  answers : List (List Reply)
  /-- Whether the client has said goodbye. -/
  quit : Bool

/-- The bytes to send. -/
def Outcome.output (o : Outcome) : Bytes := Reply.renderAll o.answers.flatten

theorem length_skip_le (s : Session) : s.skip.arrived.length ≤ s.arrived.length := by
  unfold skip
  split <;> simp

theorem ofBytes_nil : Reading.ofBytes [] = .needMore := by decide

theorem length_drop_consumed_lt {arrived : Bytes} {request : Request} {consumed : Nat}
    (read : Reading.ofBytes arrived = .complete request consumed) :
    (arrived.drop consumed).length < arrived.length := by
  have := Reading.two_le_consumed read
  have := Reading.consumed_le read
  simp only [List.length_drop]
  omega

theorem length_afterLine_lt {arrived : Bytes} {e : RequestError} (read : Reading.ofBytes arrived = .refused e) :
    (afterLine arrived).length < arrived.length := by
  unfold afterLine
  split
  · rename_i cut
    simp only [Bytes.splitLine_eq_some cut, Bytes.crlf, List.length_append, List.length_cons, List.length_nil]
    omega
  · cases arrived with
    | nil => simp [ofBytes_nil] at read
    | cons => simp

/-- Uses up what has arrived, after the given answers, latest first. -/
def processAfter (answers : List (List Reply)) (service : Service) (s : Session) : Outcome :=
  if 0 < s.skip.discard then ⟨service, s.skip, answers.reverse, false⟩
  else match _ : Reading.ofBytes s.skip.arrived with
    | .needMore => ⟨service, s.skip, answers.reverse, false⟩
    | .refused e =>
      processAfter ([e.reply] :: answers)
        { service with metrics.protocolErrors := service.metrics.protocolErrors + 1 }
        ⟨afterLine s.skip.arrived, e.blockLength⟩
    | .complete request consumed =>
      if request = .quit then ⟨service, s.skip, answers.reverse, true⟩
      else
        let (replies, service) := service.execute request
        processAfter (if request.isNoreply then answers else replies :: answers) service
          { s.skip with arrived := s.skip.arrived.drop consumed }
termination_by s.arrived.length
decreasing_by
  · exact Nat.lt_of_lt_of_le (length_afterLine_lt (by assumption)) s.length_skip_le
  · exact Nat.lt_of_lt_of_le (length_drop_consumed_lt (by assumption)) s.length_skip_le

/-- Carries out every request that has arrived in full, up to the first goodbye. -/
def process (service : Service) (s : Session) : Outcome := processAfter [] service s

/-- Takes in one more chunk. Its bytes are counted before they are processed, those of the output
after it. -/
def receive (service : Service) (s : Session) (chunk : Bytes) : Outcome :=
  let o := process { service with metrics.bytesRead := service.metrics.bytesRead + chunk.length }
    { s with arrived := s.arrived ++ chunk }
  { o with service.metrics.bytesWritten := o.service.metrics.bytesWritten + o.output.length }

end Session
end BlockCache

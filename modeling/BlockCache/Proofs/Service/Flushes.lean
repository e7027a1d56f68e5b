import BlockCache.Proofs.Item.Lifetime
import BlockCache.Proofs.Service.Served

/-!
# Flushes

A flush that is asked for a time to come waits; any other one happens at once, unless its time is so far in the past
that 64 bits cannot say how far: then it waits, for as long as the difference wraps to. No flush that waits is ever
overdue.
-/

namespace BlockCache
namespace Service

variable {s : Service} {delay : Int64}

theorem now_nonneg (s : Service) : 0 ≤ s.now.toInt := by
  have clamped : s.now.toInt = max Int64.minValue.toInt (min Int64.maxValue.toInt (max s.clock 0)) := toInt_ofIntClamp _
  have least : Int64.minValue.toInt = -9223372036854775808 := by decide
  have greatest : Int64.maxValue.toInt = 9223372036854775807 := by decide
  omega

/-- How many seconds ahead of now a flush is asked for; without a delay that is now. -/
def ahead (s : Service) (delay : Int64) : Int := ((resolveExpiry delay s.now).getD s.now).toInt - s.now.toInt

/-- A time to come is never too far ahead for a word, since no clock stands before 1970. -/
theorem ahead_lt (s : Service) (delay : Int64) : s.ahead delay < 9223372036854775808 := by
  have := Int64.toInt_lt ((resolveExpiry delay s.now).getD s.now)
  have := s.now_nonneg
  rw [ahead]
  omega

theorem le_ahead (s : Service) (delay : Int64) : -18446744073709551615 ≤ s.ahead delay := by
  have := Int64.le_toInt ((resolveExpiry delay s.now).getD s.now)
  have := Int64.toInt_lt s.now
  rw [ahead]
  omega

theorem toInt_flushWait (s : Service) (delay : Int64) :
    (s.flushWait delay).toInt = (s.ahead delay).bmod 18446744073709551616 := by
  rw [flushWait, ahead]
  cases resolveExpiry delay s.now with
  | none => simp
  | some due => exact Int64.toInt_sub _ _

/-- The difference of two times is exact as long as 64 bits can say it. -/
theorem toInt_flushWait_of_le (near : -9223372036854775808 ≤ s.ahead delay) :
    (s.flushWait delay).toInt = s.ahead delay := by
  have := s.ahead_lt delay
  rw [toInt_flushWait, Int.bmod_eq_of_le] <;> omega

/-- A time further in the past comes out as one ahead. -/
theorem toInt_flushWait_of_lt (far : s.ahead delay < -9223372036854775808) :
    (s.flushWait delay).toInt = s.ahead delay + 18446744073709551616 := by
  have := s.le_ahead delay
  rw [toInt_flushWait, ← Int.add_bmod_right, Int.bmod_eq_of_le] <;> omega

/-- What a flush does, by how far ahead it is asked for. -/
inductive Flushed (s : Service) (delay : Int64) : Service → Prop where
  | now (near : -9223372036854775808 ≤ s.ahead delay) (due : s.ahead delay ≤ 0) :
      Flushed s delay { s with cache := s.cache.flushAll }
  | later (due : 0 < s.ahead delay) : Flushed s delay { s with flushes := s.flushes ++ [s.clock + s.ahead delay] }
  /-- The difference has wrapped: the cache is kept, and the flush waits. -/
  | wrapped (far : s.ahead delay < -9223372036854775808) :
      Flushed s delay { s with flushes := s.flushes ++ [s.clock + (s.ahead delay + 18446744073709551616)] }

theorem flushed (s : Service) (delay : Int64) : Flushed s delay (s.flush delay) := by
  have least := s.le_ahead delay
  have atOnce : s.flushWait delay ≤ 0 ↔ (s.flushWait delay).toInt ≤ 0 := Int64.le_iff_toInt_le
  rcases lt_or_ge (s.ahead delay) (-9223372036854775808) with far | near
  · have wait := toInt_flushWait_of_lt far
    rw [wait] at atOnce
    rw [flush, if_neg (by rw [atOnce]; omega), wait]
    exact .wrapped far
  · have wait := toInt_flushWait_of_le near
    rw [wait] at atOnce
    rw [flush, wait]
    split
    · exact .now near (atOnce.1 (by assumption))
    · exact .later (not_le.1 (mt atOnce.2 (by assumption)))

/-- The least delay, one second after 1970 began: its time is a second too far in the past for a word. -/
example : (flush { cache := .new {} 0, clock := 1, processId := 1 } Int64.minValue).flushes = [9223372036854775808] := by
  decide +kernel

/-- No flush that waits is overdue. -/
def Punctual (s : Service) : Prop := ∀ due ∈ s.flushes, s.clock < due

namespace Punctual

variable {s t : Service}

theorem congr (punctual : s.Punctual) (flushes : t.flushes = s.flushes) (clock : t.clock = s.clock) : t.Punctual := by
  rw [Punctual, flushes, clock]
  exact punctual

theorem wait (punctual : s.Punctual) {seconds : Int} (ahead : 0 < seconds) :
    Punctual { s with flushes := s.flushes ++ [s.clock + seconds] } := by
  intro due mem
  rcases List.mem_append.1 mem with before | last
  · exact punctual due before
  · rw [List.mem_singleton.1 last]
    exact Int.lt_add_of_pos_right _ ahead

theorem flush (punctual : s.Punctual) (delay : Int64) : (s.flush delay).Punctual := by
  have least := s.le_ahead delay
  have flushed := s.flushed delay
  generalize s.flush delay = t at flushed
  cases flushed with
  | now => exact punctual
  | later due => exact punctual.wait due
  | wrapped far => exact punctual.wait (by omega)

theorem storeFault (punctual : s.Punctual) (e : StoreError) : (s.storeFault e).2.Punctual := by
  cases e <;> exact punctual

theorem take (punctual : s.Punctual) (step : Cache.Step α) (reply : α → Reply) : (s.take step reply).2.Punctual := by
  rcases step with ⟨e | answer, cache⟩
  · exact storeFault (s := { s with cache }) punctual e
  · exact punctual

theorem read (punctual : s.Punctual) (keys : List Key) (withCas : Bool) : (s.read keys withCas).2.Punctual := by
  rw [Service.read]
  rcases s.cache.get s.now keys with ⟨e | found, cache⟩
  · exact storeFault (s := { s with cache }) punctual e
  · exact punctual

/-- Only a flush adds to what waits. -/
theorem perform (punctual : s.Punctual) (r : Request) : (s.perform r).2.Punctual := by
  cases r with
  | get keys withCas => exact punctual.read keys withCas
  | store | delete | incr | decr => exact punctual.take _ _
  | flushAll delay noreply => exact punctual.flush delay
  | stats | version | verbosity | quit => exact punctual

theorem execute (punctual : s.Punctual) (r : Request) : (s.execute r).2.Punctual :=
  perform (s := s.counted r) punctual r

/-- What is due by the new time happens and no longer waits. -/
theorem setClock (s : Service) (clock : Int) : (s.setClock clock).Punctual := by
  intro due mem
  exact of_decide_eq_true (List.mem_filter.1 mem).2

theorem processAfter (punctual : s.Punctual) (answers : List (List Reply)) (session : Session) :
    (session.processAfter answers s).service.Punctual := by
  fun_induction Session.processAfter answers s session with
  | case1 | case2 | case4 => exact punctual
  | case3 => rename_i ih; exact ih punctual
  | case5 =>
    rename_i request _ _ _ _ _ executed ih
    have after := punctual.execute request
    rw [executed] at after
    exact ih after

theorem receive (punctual : s.Punctual) (session : Session) (chunk : Bytes) :
    (session.receive s chunk).service.Punctual := by
  refine congr (processAfter ?_ [] _) rfl rfl
  exact punctual

end Punctual
end Service

namespace Server

variable {s : Server}

theorem punctual_handle (punctual : s.service.Punctual) (event : Event) : (s.handle event).service.Punctual := by
  cases event with
  | connect =>
    refine punctual.congr ?_ ?_ <;>
    · rw [handle, connect]
      repeat' split
      all_goals rfl
  | hangUp client => exact punctual
  | send client chunk =>
    rw [handle, send]
    split
    · exact punctual
    · rename_i connection _
      split
      · exact punctual
      · have received := Service.Punctual.receive punctual connection.session chunk
        dsimp only
        split
        · exact received
        · exact received
  | advance seconds => exact Service.Punctual.setClock _ _
  | stop => simp [handle, stop, Service.Punctual]

/-- Whatever happens to a server, none of its flushes is overdue. -/
theorem punctual_run (punctual : s.service.Punctual) (events : List Event) : (s.run events).service.Punctual := by
  induction events generalizing s with
  | nil => exact punctual
  | cons event events ih => exact ih (punctual_handle punctual event)

end Server
end BlockCache

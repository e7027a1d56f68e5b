import BlockCache.Proofs.Wire.Stability
import Mathlib.Data.List.Basic

/-!
# Where lines end and tokens begin

The reader cuts a line at the first line end that has arrived, wherever that is, and a token at every
space. What it keeps in hand on the way, the line and the token read so far, is an accumulator.
-/

namespace BlockCache.Bytes

variable {b line rest : Bytes}

theorem splitLine_eq_none_iff : splitLine b = none ↔ ¬ crlf <:+: b := by
  constructor
  · rintro uncut ⟨line, rest, rfl⟩
    exact splitLineFrom_ne_none [] line rest uncut
  · intro unended
    rcases cut : splitLine b with - | ⟨line, rest⟩
    · rfl
    · exact absurd ⟨line, rest, (splitLine_eq_some cut).symm⟩ unended

/-- A line without a line end in it is read to its own end: the carriage return there cannot be the line
feed of an earlier one. -/
theorem splitLineFrom_line (before : Bytes) (unended : ¬ crlf <:+: line) :
    splitLineFrom before (line ++ crlf ++ rest) = some (before.reverse ++ line, rest) := by
  induction line generalizing before with
  | nil => simp [crlf, splitLineFrom]
  | cons b line ih =>
    have tail : ¬ crlf <:+: line := fun inside => unended (inside.trans (List.suffix_cons b line).isInfix)
    have step : splitLineFrom before (b :: line ++ crlf ++ rest) =
        splitLineFrom (b :: before) (line ++ crlf ++ rest) := by
      rw [List.cons_append, List.cons_append, splitLineFrom]
      rintro after rfl next
      cases line with
      | nil => simp [crlf] at next
      | cons c line =>
        obtain ⟨rfl, -⟩ := List.cons.inj next
        exact unended ⟨[], line, rfl⟩
    rw [step, ih (b :: before) tail]
    simp

theorem splitLine_eq_some_iff :
    splitLine b = some (line, rest) ↔ b = line ++ crlf ++ rest ∧ ¬ crlf <:+: line := by
  constructor
  · intro cut
    have whole := splitLine_eq_some cut
    refine ⟨whole, fun inside => ?_⟩
    rcases earlier : splitLine line with - | ⟨first, second⟩
    · exact splitLine_eq_none_iff.mp earlier inside
    · have again := splitLine_append earlier (crlf ++ rest)
      rw [← List.append_assoc, ← whole, cut] at again
      obtain ⟨rfl, -⟩ := Prod.mk.inj (Option.some.inj again)
      have length := congrArg List.length (splitLine_eq_some earlier)
      rw [List.length_append, List.length_append] at length
      simp only [crlf, List.length_cons] at length
      omega
  · rintro ⟨rfl, unended⟩
    exact splitLineFrom_line [] unended

/-- The pieces between spaces, the empty ones left out. -/
def words (line : Bytes) : List Bytes := (line.splitOn 32).filter (· ≠ [])

theorem tokensFrom_eq (token : Bytes) (found : List Bytes) (b : Bytes) :
    tokensFrom token found b =
      found.reverse ++ ((b.splitOn 32).modifyHead (token.reverse ++ ·)).filter (· ≠ []) := by
  induction b generalizing token found with
  | nil => cases token <;> simp [tokensFrom]
  | cons c b ih =>
    rw [List.splitOn_cons_eq_if_modifyHead, tokensFrom]
    by_cases space : c = 32
    · subst space
      have same : (b.splitOn 32).modifyHead ([].reverse ++ ·) = b.splitOn 32 := by
        cases b.splitOn 32 <;> rfl
      rw [if_pos rfl, ih, same]
      cases token <;> simp
    · rw [if_neg space, if_neg (by simpa using space), ih, List.modifyHead_modifyHead]
      simp [Function.comp_def]

theorem tokens_eq_words (line : Bytes) : tokens line = words line := by
  rw [tokens, tokensFrom_eq, words]
  cases line.splitOn 32 <;> rfl

end BlockCache.Bytes

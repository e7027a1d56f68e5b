import BlockCache.Wire.Reading

/-!
# More bytes do not change what was read

Once a line has ended, its end stays where it is whatever arrives after it; and once the front of the
bytes has been read as a request, or as a line that is none, more bytes change nothing about that. Only
a line that has not ended yet is judged by what has arrived so far.
-/

namespace BlockCache

namespace Bytes

variable {before b line rest : Bytes}

theorem splitLineFrom_append (cut : splitLineFrom before b = some (line, rest)) (more : Bytes) :
    splitLineFrom before (b ++ more) = some (line, rest ++ more) := by
  fun_induction splitLineFrom before b with
  | case1 => cases cut
  | case2 before rest' =>
    obtain ⟨rfl, rfl⟩ := Prod.mk.inj (Option.some.inj cut)
    rfl
  | case3 before b rest' others ih =>
    have same : splitLineFrom before (b :: rest' ++ more) = splitLineFrom (b :: before) (rest' ++ more) := by
      rw [List.cons_append, splitLineFrom]
      intro tail first second
      cases rest' with
      | nil => cases cut
      | cons c rest' =>
        obtain ⟨rfl, -⟩ := List.cons.inj second
        exact others rest' first rfl
    exact same.trans (ih cut)

/-- The end of a line stays where it is. -/
theorem splitLine_append (cut : splitLine b = some (line, rest)) (more : Bytes) :
    splitLine (b ++ more) = some (line, rest ++ more) := splitLineFrom_append cut more

theorem splitLineFrom_ne_none (before line rest : Bytes) : splitLineFrom before (line ++ crlf ++ rest) ≠ none := by
  induction line generalizing before with
  | nil => simp [crlf, splitLineFrom]
  | cons b line ih =>
    rw [List.cons_append, List.cons_append, splitLineFrom.eq_def]
    split
    · rename_i empty
      cases empty
    · simp
    · rename_i same
      obtain ⟨rfl, rfl⟩ := List.cons.inj same
      exact ih _

/-- Bytes without a line end stop before the line feed of the first line. -/
theorem length_le_of_splitLine_eq_none {more : Bytes} (uncut : splitLine b = none)
    (cut : splitLine (b ++ more) = some (line, rest)) : b.length ≤ line.length + 1 := by
  refine Nat.le_of_not_lt fun longer => ?_
  have whole := splitLine_eq_some cut
  have ended : (line ++ crlf).length ≤ b.length := by
    rw [List.length_append]
    exact longer
  obtain ⟨tail, rfl⟩ := List.prefix_of_prefix_length_le ⟨rest, whole.symm⟩ ⟨more, rfl⟩ ended
  exact splitLineFrom_ne_none [] line tail uncut

end Bytes

namespace Reading

theorem ofBlock_of_short {head length : Nat} {withData : Bytes → Request} {rest : Bytes}
    (short : rest.length < length + 2) :
    ofBlock head length withData rest = .needMore := by
  have left : (rest.drop length).length < 2 := by
    rw [List.length_drop]
    omega
  unfold ofBlock
  split
  · rename_i ends
    rw [ends] at left
    exact absurd left (by simp)
  · rename_i ends
    rw [ends] at left
    exact absurd left (by simp)
  · rfl

/-- Data, and two more bytes at least. -/
theorem exists_data {length : Nat} {rest : Bytes} (enough : length + 2 ≤ rest.length) :
    ∃ data a b tail, rest = data ++ a :: b :: tail ∧ data.length = length := by
  have left : (rest.drop length).length = rest.length - length := List.length_drop
  have taken : (rest.take length).length = length := List.length_take_of_le (by omega)
  have whole := (List.take_append_drop length rest).symm
  rcases after : rest.drop length with - | ⟨a, - | ⟨b, tail⟩⟩
  · rw [after, List.length_nil] at left
    omega
  · rw [after, List.length_singleton] at left
    omega
  · rw [after] at whole
    exact ⟨rest.take length, a, b, tail, whole, taken⟩

theorem ofBlock_data {head : Nat} {withData : Bytes → Request} (data : Bytes) (a b : UInt8) (tail : Bytes) :
    ofBlock head data.length withData (data ++ a :: b :: tail) =
      if a = 13 ∧ b = 10 then .complete (withData data) (head + data.length + 2)
      else .refused .unexpectedData := by
  rw [ofBlock, List.drop_left, List.take_left]
  by_cases crlf : a = 13 ∧ b = 10
  · obtain ⟨rfl, rfl⟩ := crlf
    rfl
  · rw [if_neg crlf]
    split
    · rename_i ends
      obtain ⟨carriage, others⟩ := List.cons.inj ends
      exact absurd ⟨carriage, (List.cons.inj others).1⟩ crlf
    · rfl
    · rename_i short
      exact absurd rfl (short a b tail)

theorem ofBlock_append {head length : Nat} {withData : Bytes → Request} {rest : Bytes}
    (known : ofBlock head length withData rest ≠ .needMore) (more : Bytes) :
    ofBlock head length withData (rest ++ more) = ofBlock head length withData rest := by
  have enough : length + 2 ≤ rest.length := Nat.le_of_not_lt fun short => known (ofBlock_of_short short)
  obtain ⟨data, a, b, tail, rfl, rfl⟩ := exists_data enough
  rw [List.append_assoc, List.cons_append, List.cons_append, ofBlock_data, ofBlock_data]

/-- What was read after the end of a line is read again when more has arrived. -/
theorem ofBytes_append {arrived line rest : Bytes} (cut : Bytes.splitLine arrived = some (line, rest))
    (known : ofBytes arrived ≠ .needMore) (more : Bytes) : ofBytes (arrived ++ more) = ofBytes arrived := by
  unfold ofBytes at known ⊢
  rw [cut] at known ⊢
  rw [Bytes.splitLine_append cut more]
  dsimp only at known ⊢
  rcases announced : ofTokens (Bytes.tokens line) with e | request | ⟨length, withData⟩
  · rfl
  · rfl
  · rw [announced] at known
    exact ofBlock_append known more

/-- A request ends with its line or later. -/
theorem splitLine_of_complete {arrived : Bytes} {request : Request} {consumed : Nat}
    (read : ofBytes arrived = .complete request consumed) :
    ∃ line rest, Bytes.splitLine arrived = some (line, rest) := by
  unfold ofBytes at read
  rcases cut : Bytes.splitLine arrived with - | ⟨line, rest⟩
  · rw [cut] at read
    dsimp only at read
    split at read <;> cases read
  · exact ⟨line, rest, rfl⟩

/-- An unfinished line is refused for its length, and for nothing else. -/
theorem ofBytes_of_splitLine_eq_none {arrived : Bytes} (uncut : Bytes.splitLine arrived = none) :
    ofBytes arrived =
      if maxLineLength < arrived.length then .refused (.invalidCommand "line too long") else .needMore := by
  rw [ofBytes, uncut]

end Reading
end BlockCache

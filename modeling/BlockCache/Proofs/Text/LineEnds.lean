import BlockCache.Proofs.Wire.Lines
import BlockCache.Text.Utf8
import Mathlib.Algebra.GroupWithZero.Nat

/-!
# Line ends in text

Text on the wire is in UTF-8, where only an ASCII character has an ASCII byte. Reading bytes as text keeps
ASCII bytes as they are and makes none out of others: an overlong form of a line end is no character at all. So
text holds a line end only where the bytes that it was read from do.
-/

namespace BlockCache

namespace Bytes

/-- The bytes of a text, character by character. -/
theorem ofString_ofList (chars : List Char) : ofString (String.ofList chars) = chars.flatMap String.utf8EncodeChar := by
  rw [ofString, String.toUTF8, String.toByteArray_ofList, List.utf8Encode, List.toList_data_toByteArray]

theorem ofString_append (s t : String) : ofString (s ++ t) = ofString s ++ ofString t := by
  rw [← String.ofList_toList (s := s), ← String.ofList_toList (s := t), ← String.ofList_append, ofString_ofList,
    ofString_ofList, ofString_ofList, List.flatMap_append]

/-- Only an ASCII character has an ASCII byte. -/
theorem toNat_eq_of_mem_encode {c : Char} {b : UInt8} (mem : b ∈ String.utf8EncodeChar c) (ascii : b < 128) :
    c.toNat = b.toNat := by
  have ascii : b.toNat < 128 := ascii
  have narrow (n : Nat) : (UInt8.ofNat n).toNat = n % 256 := UInt8.toNat_ofNat'
  unfold String.utf8EncodeChar at mem
  rw [Char.toNat]
  simp only [apply_ite (b ∈ ·), List.mem_cons, List.not_mem_nil, or_false, ← UInt8.toNat_inj, narrow] at mem
  split at mem
  · omega
  · split at mem
    · omega
    · split at mem <;> omega

/-- A line end that follows bytes without a carriage return. -/
theorem crlf_of_append {front back : Bytes} (free : 13 ∉ front) (inside : crlf <:+: front ++ back) :
    crlf <:+: back := by
  induction front with
  | nil => exact inside
  | cons b front ih =>
    rw [List.mem_cons, not_or] at free
    rcases List.infix_cons_iff.1 inside with start | later
    · exact absurd (List.cons_prefix_cons.1 start).1 free.1
    · exact ih free.2 later

end Bytes

namespace Utf8

open Bytes

/-- No leading byte begins an overlong form. -/
theorem le_of_follow {lead low high b : UInt8} {n : Nat} (leads : follow lead = some (n + 1, low, high))
    (lower : low ≤ b) (upper : b ≤ high) :
    128 ≤ ((lead.toNat &&& (0x3F >>> (n + 1))) * 64 + (b.toNat &&& 0x3F)) * 64 ^ n := by
  have six : b.toNat &&& 0x3F = b.toNat % 64 := Nat.and_two_pow_sub_one_eq_mod b.toNat 6
  have five : lead.toNat &&& 0x1F = lead.toNat % 32 := Nat.and_two_pow_sub_one_eq_mod lead.toNat 5
  have four : lead.toNat &&& 0x0F = lead.toNat % 16 := Nat.and_two_pow_sub_one_eq_mod lead.toNat 4
  have three : lead.toNat &&& 0x07 = lead.toNat % 8 := Nat.and_two_pow_sub_one_eq_mod lead.toNat 3
  rw [six]
  unfold follow at leads
  simp only [UInt8.lt_iff_toNat_lt, UInt8.le_iff_toNat_le, ← UInt8.toNat_inj, UInt8.reduceToNat] at leads lower upper
  repeat' split at leads
  all_goals cases leads
  all_goals
    simp only [UInt8.reduceToNat] at lower upper
    simp only [Nat.reduceAdd, Nat.reduceShiftRight, five, four, three]
    omega

/-- Continuing a number only makes it larger. -/
theorem le_foldl_continue (code : Nat) (tail : Bytes) :
    code * 64 ^ tail.length ≤ tail.foldl (fun code b => code * 64 + (b.toNat &&& 0x3F)) code := by
  induction tail generalizing code with
  | nil => simp
  | cons b tail ih =>
    rw [List.length_cons, Nat.pow_succ', ← Nat.mul_assoc, List.foldl_cons]
    exact Nat.le_trans (Nat.mul_le_mul_right _ (Nat.le_add_right _ _)) (ih _)

/-- A character of more than one byte is none of ASCII. -/
theorem le_codePoint {lead low high : UInt8} {n : Nat} {rest : Bytes} (leads : follow lead = some (n + 1, low, high))
    (whole : (continuation (n + 1) low high rest).length = n + 1) :
    128 ≤ codePoint lead (continuation (n + 1) low high rest) := by
  cases rest with
  | nil => cases whole
  | cons b rest =>
    rw [continuation] at whole ⊢
    split at whole
    · rename_i bounds
      rw [if_pos bounds]
      rw [List.length_cons, Nat.add_right_cancel_iff] at whole
      simp only [Bool.and_eq_true, decide_eq_true_eq] at bounds
      have first := le_of_follow leads bounds.1 bounds.2
      simp only [codePoint, List.isEmpty_cons, Bool.false_eq_true, if_false, List.foldl_cons, List.length_cons, whole]
      refine Nat.le_trans ?_ (le_foldl_continue _ _)
      rw [whole]
      exact first
    · cases whole

theorem ofString_lossy_of_pieces {b after : Bytes} {piece : Option Char} (cut : pieces b = piece :: pieces after) :
    ofString (lossy b) = String.utf8EncodeChar (piece.getD '\uFFFD') ++ ofString (lossy after) := by
  rw [lossy, cut, ofString_ofList, lossy, ofString_ofList, List.map_cons, List.flatMap_cons]

theorem encode_ne_nil (c : Char) : String.utf8EncodeChar c ≠ [] := by
  intro empty
  have size := congrArg List.length empty
  rw [String.length_utf8EncodeChar] at size
  have := c.utf8Size_pos
  rw [size] at this
  cases this

theorem not_mem_replacement {b : UInt8} (ascii : b < 128) : b ∉ String.utf8EncodeChar '\uFFFD' := by
  intro mem
  have value := Bytes.toNat_eq_of_mem_encode mem ascii
  have ascii : b.toNat < 128 := ascii
  rw [← value] at ascii
  exact absurd ascii (by decide)

/-- A large number is the number of a character that is not in ASCII, or of none. -/
theorem not_mem_ofNat {code : Nat} (large : 128 ≤ code) {b : UInt8} (ascii : b < 128) (some_bit : b ≠ 0) :
    b ∉ String.utf8EncodeChar (Char.ofNat code) := by
  intro mem
  have value := Bytes.toNat_eq_of_mem_encode mem ascii
  have ascii : b.toNat < 128 := ascii
  have positive : b.toNat ≠ 0 := fun zero => some_bit (UInt8.toNat_inj.1 zero)
  by_cases valid : code.isValidChar
  · have same : (Char.ofNat code).toNat = code := congrArg Char.toNat (dif_pos valid)
    omega
  · have same : (Char.ofNat code).toNat = 0 := congrArg Char.toNat (dif_neg valid)
    omega

theorem encode_of_ascii {lead : UInt8} (ascii : lead < 128) :
    String.utf8EncodeChar (Char.ofNat (lead.toNat &&& 0x7F)) = [lead] := by
  have ascii : lead.toNat < 128 := ascii
  have low : lead.toNat &&& 0x7F = lead.toNat := by
    rw [Nat.and_two_pow_sub_one_eq_mod lead.toNat 7, Nat.mod_eq_of_lt ascii]
  have valid : lead.toNat.isValidChar := .inl (by omega)
  have value : (Char.ofNat lead.toNat).val.toNat = lead.toNat := congrArg Char.toNat (dif_pos valid)
  rw [low, String.utf8EncodeChar, value]
  exact (if_pos (by omega)).trans (congrArg (fun b => [b]) UInt8.ofNat_toNat)

/-- Reading the first piece of some bytes: an ASCII byte stands for itself, and nothing else becomes a line end. -/
theorem ofString_lossy_cons (lead : UInt8) (rest : Bytes) :
    ofString (lossy (lead :: rest)) = lead :: ofString (lossy rest) ∨
      ∃ front after, ofString (lossy (lead :: rest)) = front ++ ofString (lossy after) ∧ after <:+ rest ∧
        front ≠ [] ∧ 13 ∉ front ∧ 10 ∉ front := by
  rcases leads : follow lead with - | ⟨- | n, low, high⟩
  · have cut : pieces (lead :: rest) = none :: pieces rest := by
      rw [pieces, leads]
    exact .inr ⟨_, rest, ofString_lossy_of_pieces cut, List.suffix_rfl, encode_ne_nil _, not_mem_replacement (by decide),
      not_mem_replacement (by decide)⟩
  · have cut : pieces (lead :: rest) = some (Char.ofNat (lead.toNat &&& 0x7F)) :: pieces rest := by
      rw [pieces, leads]
      rfl
    have ascii : lead < 128 := by
      unfold follow at leads
      split at leads
      · assumption
      · repeat' split at leads
        all_goals cases leads
    refine .inl ((ofString_lossy_of_pieces cut).trans ?_)
    rw [Option.getD_some, encode_of_ascii ascii]
    rfl
  · let tail := continuation (n + 1) low high rest
    by_cases whole : tail.length = n + 1
    · have cut : pieces (lead :: rest) = some (Char.ofNat (codePoint lead tail)) :: pieces (rest.drop tail.length) := by
        rw [pieces, leads]
        dsimp only
        rw [if_pos whole]
      have large := le_codePoint leads whole
      exact .inr ⟨_, _, ofString_lossy_of_pieces cut, List.drop_suffix _ _, encode_ne_nil _,
        not_mem_ofNat large (by decide) (by decide), not_mem_ofNat large (by decide) (by decide)⟩
    · have cut : pieces (lead :: rest) = none :: pieces (rest.drop tail.length) := by
        rw [pieces, leads]
        dsimp only
        rw [if_neg whole]
      exact .inr ⟨_, _, ofString_lossy_of_pieces cut, List.drop_suffix _ _, encode_ne_nil _, not_mem_replacement (by decide),
        not_mem_replacement (by decide)⟩

/-- A line feed at the start of a text is one at the start of the bytes. -/
theorem lineFeed_of_lossy {b : Bytes} (starts : [10] <+: ofString (lossy b)) : [10] <+: b := by
  cases b with
  | nil =>
    rw [lossy, pieces, ofString_ofList] at starts
    exact starts
  | cons lead b =>
    rcases ofString_lossy_cons lead b with same | ⟨front, after, split, -, some_front, -, free⟩
    · rw [same, List.cons_prefix_cons] at starts
      exact starts.1 ▸ List.prefix_append [10] b
    · obtain ⟨c, front, rfl⟩ := List.exists_cons_of_ne_nil some_front
      rw [split, List.cons_append, List.cons_prefix_cons] at starts
      exact absurd List.mem_cons_self (starts.1 ▸ free)

/-- Text holds a line end only where the bytes do. -/
theorem crlf_of_lossy {b : Bytes} (inside : crlf <:+: ofString (lossy b)) : crlf <:+: b := by
  -- By length, since a piece may take several bytes.
  induction size : b.length using Nat.strongRecOn generalizing b with
  | ind size ih =>
    subst size
    cases b with
    | nil =>
      rw [lossy, pieces, ofString_ofList] at inside
      exact inside
    | cons lead b =>
      rcases ofString_lossy_cons lead b with same | ⟨front, after, split, shorter, -, free, -⟩
      · rw [same] at inside
        rcases List.infix_cons_iff.1 inside with start | later
        · obtain ⟨rfl, next⟩ := List.cons_prefix_cons.1 start
          exact (List.cons_prefix_cons.2 ⟨rfl, lineFeed_of_lossy next⟩).isInfix
        · exact (ih _ (by simp) later rfl).trans (List.suffix_cons lead b).isInfix
      · rw [split] at inside
        have later := ih after.length (Nat.lt_succ_of_le shorter.length_le) (crlf_of_append free inside) rfl
        exact later.trans (shorter.isInfix.trans (List.suffix_cons lead b).isInfix)

end Utf8
end BlockCache

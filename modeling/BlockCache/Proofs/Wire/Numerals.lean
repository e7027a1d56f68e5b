import BlockCache.Number.Decimal
import Mathlib.Data.Nat.Digits.Defs

/-!
# What the readers of numbers accept

A number on the wire is a sign or none and then digits. The readers go digit by digit and stop as soon
as the value is past their bound; the value of the digits so far only grows, so nothing in range is lost.
What is written is a numeral without leading zeros, and reading gives the number back.
-/

namespace BlockCache.Decimal

/-- One or more ASCII digits, and the number they write. -/
structure Numeral (token : Bytes) (n : Nat) : Prop where
  written : token ≠ []
  digits : ∀ b ∈ token, 48 ≤ b ∧ b ≤ 57
  value : n = Nat.ofDigits 10 (token.reverse.map fun b => b.toNat - 48)

/-- A numeral that may have a plus sign. -/
inductive Unsigned : Bytes → Nat → Prop where
  | bare {token : Bytes} {n : Nat} (numeral : Numeral token n) : Unsigned token n
  | plus {token : Bytes} {n : Nat} (numeral : Numeral token n) : Unsigned (43 :: token) n

/-- A numeral that may have either sign. -/
inductive Signed : Bytes → Int → Prop where
  | unsigned {token : Bytes} {n : Nat} (number : Unsigned token n) : Signed token n
  | minus {token : Bytes} {n : Nat} (numeral : Numeral token n) : Signed (45 :: token) (-n)

/-- A token that starts with no digit is no numeral. -/
theorem not_numeral_cons {b : UInt8} {token : Bytes} {n : Nat} (sign : b < 48) : ¬ Numeral (b :: token) n := by
  intro numeral
  have := (numeral.digits b List.mem_cons_self).1
  exact absurd sign (UInt8.not_lt.mpr this)

/-- The value of digits that follow digits of value `acc`. -/
def valueFrom (acc : Nat) (token : Bytes) : Nat := token.foldl (fun n b => n * 10 + (b.toNat - 48)) acc

theorem le_valueFrom (acc : Nat) (token : Bytes) : acc ≤ valueFrom acc token := by
  induction token generalizing acc with
  | nil => exact Nat.le_refl acc
  | cons b token ih =>
    refine Nat.le_trans ?_ (ih (acc * 10 + (b.toNat - 48)))
    omega

theorem valueFrom_zero (token : Bytes) :
    valueFrom 0 token = Nat.ofDigits 10 (token.reverse.map fun b => b.toNat - 48) := by
  rw [Nat.ofDigits_eq_foldr, List.foldr_map, List.foldr_reverse]
  unfold valueFrom
  congr 1
  funext n b
  simp only [Nat.cast_id]
  omega

theorem digit?_eq_some {b : UInt8} {d : Nat} : digit? b = some d ↔ (48 ≤ b ∧ b ≤ 57) ∧ d = b.toNat - 48 := by
  unfold digit?
  split
  · rename_i inside
    have inside : 48 ≤ b ∧ b ≤ 57 := by simpa using inside
    simp [inside, eq_comm]
  · rename_i outside
    have outside : ¬ (48 ≤ b ∧ b ≤ 57) := by simpa using outside
    simp [outside]

theorem extend_eq_some {max acc n : Nat} {b : UInt8} :
    extend max acc b = some n ↔ (48 ≤ b ∧ b ≤ 57) ∧ n = acc * 10 + (b.toNat - 48) ∧ n ≤ max := by
  unfold extend
  split
  · rename_i none
    have : ¬ (48 ≤ b ∧ b ≤ 57) := fun inside => by
      rw [digit?_eq_some.mpr ⟨inside, rfl⟩] at none
      cases none
    simp [this]
  · rename_i digit
    obtain ⟨inside, rfl⟩ := digit?_eq_some.mp digit
    rw [Option.ite_none_right_eq_some, Option.some.injEq]
    constructor
    · rintro ⟨fits, rfl⟩
      exact ⟨inside, rfl, fits⟩
    · rintro ⟨-, rfl, fits⟩
      exact ⟨fits, rfl⟩

theorem foldlM_extend {max acc n : Nat} {token : Bytes} (small : acc ≤ max) :
    token.foldlM (extend max) acc = some n ↔
      (∀ b ∈ token, 48 ≤ b ∧ b ≤ 57) ∧ n = valueFrom acc token ∧ n ≤ max := by
  induction token generalizing acc with
  | nil =>
    constructor
    · rintro ⟨⟩
      exact ⟨List.forall_mem_nil _, rfl, small⟩
    · rintro ⟨-, rfl, -⟩
      rfl
  | cons b token ih =>
    rw [List.foldlM_cons, List.forall_mem_cons]
    constructor
    · intro read
      obtain ⟨next, first, rest⟩ := Option.bind_eq_some_iff.mp read
      obtain ⟨digit, rfl, fits⟩ := extend_eq_some.mp first
      obtain ⟨digits, value, fits⟩ := (ih fits).mp rest
      exact ⟨⟨digit, digits⟩, value, fits⟩
    · rintro ⟨⟨digit, digits⟩, value, fits⟩
      have fits' : acc * 10 + (b.toNat - 48) ≤ max := by
        refine Nat.le_trans (le_valueFrom _ token) ?_
        rw [value] at fits
        exact fits
      exact Option.bind_eq_some_iff.mpr
        ⟨_, extend_eq_some.mpr ⟨digit, rfl, fits'⟩, (ih fits').mpr ⟨digits, value, fits⟩⟩

theorem readDigits?_eq_some {max n : Nat} {token : Bytes} :
    readDigits? max token = some n ↔ Numeral token n ∧ n ≤ max := by
  cases token with
  | nil =>
    constructor
    · rintro ⟨⟩
    · rintro ⟨numeral, -⟩
      exact absurd rfl numeral.written
  | cons b token =>
    rw [readDigits?, foldlM_extend (Nat.zero_le max), valueFrom_zero]
    constructor
    · rintro ⟨digits, value, fits⟩
      exact ⟨⟨List.cons_ne_nil b token, digits, value⟩, fits⟩
    · rintro ⟨numeral, fits⟩
      exact ⟨numeral.digits, numeral.value, fits⟩

theorem readNat?_eq_some {max n : Nat} {token : Bytes} :
    readNat? max token = some n ↔ Unsigned token n ∧ n ≤ max := by
  unfold readNat?
  split
  · rename_i token
    rw [readDigits?_eq_some]
    constructor
    · rintro ⟨numeral, fits⟩
      exact ⟨.plus numeral, fits⟩
    · rintro ⟨number, fits⟩
      cases number with
      | bare numeral => exact absurd numeral (not_numeral_cons (by decide))
      | plus numeral => exact ⟨numeral, fits⟩
  · rename_i noSign
    rw [readDigits?_eq_some]
    constructor
    · rintro ⟨numeral, fits⟩
      exact ⟨.bare numeral, fits⟩
    · rintro ⟨number, fits⟩
      cases number with
      | bare numeral => exact ⟨numeral, fits⟩
      | plus numeral => exact absurd rfl (noSign _)

theorem readUInt32?_eq_some {token : Bytes} {n : UInt32} :
    readUInt32? token = some n ↔ Unsigned token n.toNat := by
  unfold readUInt32?
  rw [Option.map_eq_some_iff]
  constructor
  · rintro ⟨m, read, rfl⟩
    obtain ⟨number, fits⟩ := readNat?_eq_some.mp read
    rw [UInt32.toNat_ofNat', Nat.mod_eq_of_lt (by simp only [UInt32.size] at fits; omega)]
    exact number
  · intro number
    have := n.toNat_lt
    exact ⟨n.toNat, readNat?_eq_some.mpr ⟨number, by simp only [UInt32.size]; omega⟩, UInt32.ofNat_toNat⟩

theorem readUInt64?_eq_some {token : Bytes} {n : UInt64} :
    readUInt64? token = some n ↔ Unsigned token n.toNat := by
  unfold readUInt64?
  rw [Option.map_eq_some_iff]
  constructor
  · rintro ⟨m, read, rfl⟩
    obtain ⟨number, fits⟩ := readNat?_eq_some.mp read
    rw [UInt64.toNat_ofNat', Nat.mod_eq_of_lt (by simp only [UInt64.size] at fits; omega)]
    exact number
  · intro number
    have := n.toNat_lt
    exact ⟨n.toNat, readNat?_eq_some.mpr ⟨number, by simp only [UInt64.size]; omega⟩, UInt64.ofNat_toNat⟩

/-- The two signs split the range of a signed number between them. -/
theorem readInt64?_eq_some {token : Bytes} {z : Int64} : readInt64? token = some z ↔ Signed token z.toInt := by
  have least := z.le_toInt
  have greatest := z.toInt_lt
  unfold readInt64?
  split
  · rename_i token
    rw [Option.map_eq_some_iff]
    constructor
    · rintro ⟨_, lifted, rfl⟩
      obtain ⟨n, read, ⟨⟩⟩ := Option.bind_eq_some_iff.mp lifted
      obtain ⟨numeral, fits⟩ := readDigits?_eq_some.mp read
      rw [Int64.toInt_ofInt_of_le (by omega) (by omega)]
      exact .minus numeral
    · intro number
      generalize whole : z.toInt = value at number
      cases number with
      | unsigned number =>
        cases number with
        | bare numeral => exact absurd numeral (not_numeral_cons (by decide))
      | @minus _ n numeral =>
        have read : readDigits? 0x8000000000000000 _ = some n :=
          readDigits?_eq_some.mpr ⟨numeral, by omega⟩
        refine ⟨n, Option.bind_eq_some_iff.mpr ⟨n, read, rfl⟩, ?_⟩
        rw [← whole, Int64.ofInt_toInt]
  · rename_i noMinus
    rw [Option.map_eq_some_iff]
    constructor
    · rintro ⟨n, read, rfl⟩
      obtain ⟨number, fits⟩ := readNat?_eq_some.mp read
      rw [Int64.toInt_ofNat_of_lt (by omega)]
      exact .unsigned number
    · intro number
      generalize whole : z.toInt = value at number
      cases number with
      | @unsigned _ n number =>
        refine ⟨n, readNat?_eq_some.mpr ⟨number, by omega⟩, ?_⟩
        rw [← Int64.ofInt_eq_ofNat, ← whole, Int64.ofInt_toInt]
      | minus numeral => exact absurd rfl (noMinus _)

theorem numeral_digits (n : Nat) : Numeral (digits n) n := by
  fun_induction digits n with
  | case1 n small =>
    have byte : (48 + n.toUInt8).toNat = 48 + n := by
      simp
      omega
    refine ⟨List.cons_ne_nil _ _, fun b mem => ?_, ?_⟩
    · rw [List.mem_singleton.1 mem, UInt8.le_iff_toNat_le, UInt8.le_iff_toNat_le, byte]
      exact ⟨Nat.le_add_right _ _, by simp; omega⟩
    · simp [byte]
  | case2 n large ih =>
    have byte : (48 + (n % 10).toUInt8).toNat = 48 + n % 10 := by
      simp
      omega
    refine ⟨by simp, fun b mem => ?_, ?_⟩
    · rcases List.mem_append.1 mem with before | last
      · exact ih.digits b before
      · rw [List.mem_singleton.1 last, UInt8.le_iff_toNat_le, UInt8.le_iff_toNat_le, byte]
        exact ⟨Nat.le_add_right _ _, by simp; omega⟩
    · rw [List.reverse_append, List.reverse_singleton, List.singleton_append, List.map_cons, Nat.ofDigits_cons, ← ih.value,
        byte]
      simp
      omega

/-- A number has at most as many digits as the power of ten that it is below. -/
theorem length_digits_le {n k : Nat} (below : n < 10 ^ (k + 1)) : (digits n).length ≤ k + 1 := by
  induction k generalizing n with
  | zero =>
    rw [digits, if_pos (by omega)]
    exact Nat.le_refl 1
  | succ k ih =>
    rw [digits]
    split
    · simp
    · have := ih (n := n / 10) (by rw [Nat.pow_succ] at below; omega)
      rw [List.length_append, List.length_singleton]
      omega

theorem digits_injective : Function.Injective digits := by
  intro n m same
  have left := (numeral_digits n).value
  rw [same, ← (numeral_digits m).value] at left
  exact left

/-- No digit is a space or a control character. -/
theorem not_mem_digits {b : UInt8} (control : b < 48) (n : Nat) : b ∉ digits n := fun mem =>
  absurd control (UInt8.not_lt.2 ((numeral_digits n).digits b mem).1)

/-- A numeral without leading zeros. -/
structure Canonical (token : Bytes) (n : Nat) : Prop where
  numeral : Numeral token n
  leading : token.head? = some 48 → token = [48]

theorem canonical_digits (n : Nat) : Canonical (digits n) n := by
  refine ⟨numeral_digits n, ?_⟩
  fun_induction digits n with
  | case1 n small => simp
  | case2 n large ih =>
    intro zero
    have first := List.head?_eq_some_head (numeral_digits (n / 10)).written
    rw [List.head?_append, first, Option.some_or, ← first] at zero
    have value := (numeral_digits (n / 10)).value
    rw [ih zero] at value
    simp at value
    omega

end BlockCache.Decimal

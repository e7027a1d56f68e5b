import BlockCache.Proofs.Wire.Numerals
import BlockCache.Wire.Reading
import Mathlib.Data.List.Forall2

/-!
# What the readers of arguments accept

Each reader takes what it accepts off the front of the tokens and leaves the rest. For each, the tokens it
accepts are stated without it: the keys that may be sent, the numbers in range, the names in any case.
-/

namespace BlockCache

open Decimal (Unsigned Signed)

namespace Key

/-- The keys that may be sent: 1 to 250 bytes, none of them a control character or a space. -/
structure Sendable (key : Key) : Prop where
  named : key.bytes ≠ []
  short : key.bytes.length ≤ 250
  printable : ∀ b ∈ key.bytes, 33 ≤ b ∧ b ≤ 126

theorem isValid_iff {key : Key} : key.isValid = true ↔ key.Sendable := by
  unfold isValid isKeyByte
  simp only [Bool.and_eq_true, Bool.not_eq_true', List.isEmpty_eq_false_iff, List.all_eq_true,
    decide_eq_true_eq]
  constructor
  · rintro ⟨⟨named, short⟩, printable⟩
    exact ⟨named, short, printable⟩
  · rintro ⟨named, short, printable⟩
    exact ⟨⟨named, short⟩, printable⟩

end Key

namespace Reading

variable {token : Bytes} {args rest : List Bytes}

theorem bind_eq_ok {ε α β : Type} {x : Except ε α} {f : α → Except ε β} {b : β} :
    (x >>= f) = .ok b ↔ ∃ a, x = .ok a ∧ f a = .ok b := by
  cases x <;> simp [bind, Except.bind]

theorem map_eq_ok {ε α β : Type} {x : Except ε α} {f : α → β} {b : β} :
    x.map f = .ok b ↔ ∃ a, x = .ok a ∧ f a = b := by
  cases x <;> simp [Except.map]

theorem unless_eq_ok {ε α : Type} {p : Prop} [Decidable p] {e : ε} {next : PUnit → Except ε α} {a : α} :
    (if p then throw e >>= next else next ⟨⟩) = .ok a ↔ ¬ p ∧ next ⟨⟩ = .ok a := by
  by_cases holds : p
  · rw [if_pos holds]
    constructor
    · rintro ⟨⟩
    · rintro ⟨fails, -⟩
      exact absurd holds fails
  · rw [if_neg holds, and_iff_right holds]

/-- Whether a word has no capital letter. -/
def isSmall (word : Bytes) : Bool := word.all fun letter => letter < 65 || 90 < letter

/-- The word in any ASCII case; `word` itself is in small letters. -/
def Spells (token word : Bytes) : Prop :=
  List.Forall₂ (fun byte letter => byte = letter ∨ (97 ≤ letter ∧ letter ≤ 122) ∧ byte = letter - 32) token word

theorem lowerAscii_eq_iff {byte letter : UInt8} (small : letter < 65 ∨ 90 < letter) :
    Bytes.lowerAscii byte = letter ↔ byte = letter ∨ (97 ≤ letter ∧ letter ≤ 122) ∧ byte = letter - 32 := by
  unfold Bytes.lowerAscii
  grind

theorem map_lowerAscii_eq_iff {word : Bytes} (small : isSmall word = true) :
    token.map Bytes.lowerAscii = word ↔ Spells token word := by
  induction word generalizing token with
  | nil => simp [Spells]
  | cons letter word ih =>
    obtain ⟨first, others⟩ : (letter < 65 ∨ 90 < letter) ∧ isSmall word = true := by
      simpa [isSmall] using small
    cases token with
    | nil => simp [Spells]
    | cons byte token =>
      rw [List.map_cons, List.cons.injEq, lowerAscii_eq_iff first, ih others]
      unfold Spells
      rw [List.forall₂_cons]

theorem names_iff {name : String} (small : isSmall (Bytes.ofString name) = true) :
    names token name = true ↔ Spells token (Bytes.ofString name) := by
  rw [names, beq_iff_eq, map_lowerAscii_eq_iff small]

theorem keyArg_eq_ok {key : Key} :
    keyArg args = .ok (key, rest) ↔ args = key.bytes :: rest ∧ key.Sendable := by
  rw [← Key.isValid_iff]
  cases args with
  | nil => simp [keyArg]
  | cons token others =>
    rw [keyArg, List.cons.injEq]
    by_cases valid : (Key.mk token).isValid = true
    · rw [if_pos valid]
      constructor
      · rintro ⟨⟩
        exact ⟨⟨rfl, rfl⟩, valid⟩
      · rintro ⟨⟨rfl, rfl⟩, -⟩
        rfl
    · rw [if_neg valid]
      constructor
      · intro read
        split at read
        · cases read
        · cases read
      · rintro ⟨⟨rfl, -⟩, valid'⟩
        exact absurd valid' valid

theorem keyArgs_eq_ok {keys : List Key} :
    keyArgs args = .ok keys ↔ args = keys.map (·.bytes) ∧ ∀ key ∈ keys, key.Sendable := by
  unfold keyArgs
  induction args generalizing keys with
  | nil => cases keys <;> simp [pure, Except.pure]
  | cons token others ih =>
    have first (key : Key) : (keyArg [token]).map (·.1) = .ok key ↔ token = key.bytes ∧ key.Sendable := by
      rw [map_eq_ok]
      constructor
      · rintro ⟨⟨key, left⟩, read, rfl⟩
        obtain ⟨⟨rfl, -⟩, valid⟩ := keyArg_eq_ok.mp read
        exact ⟨rfl, valid⟩
      · rintro ⟨rfl, valid⟩
        exact ⟨(key, []), keyArg_eq_ok.mpr ⟨rfl, valid⟩, rfl⟩
    rw [List.mapM_cons, bind_eq_ok]
    simp only [bind_eq_ok, first, ih]
    constructor
    · rintro ⟨key, ⟨rfl, valid⟩, keys, ⟨rfl, others⟩, ⟨⟩⟩
      exact ⟨rfl, List.forall_mem_cons.mpr ⟨valid, others⟩⟩
    · rintro ⟨same, valid⟩
      cases keys with
      | nil => cases same
      | cons key keys =>
        obtain ⟨rfl, rfl⟩ := List.cons.inj same
        obtain ⟨valid, others⟩ := List.forall_mem_cons.mp valid
        exact ⟨key, ⟨rfl, valid⟩, keys, ⟨rfl, others⟩, rfl⟩

theorem numberArg_eq_ok {α : Type} {read? : Bytes → Option α} {fault : RequestError} {n : α} :
    numberArg read? fault args = .ok (n, rest) ↔ ∃ token, args = token :: rest ∧ read? token = some n := by
  cases args with
  | nil => simp [numberArg]
  | cons token rest' =>
    rcases read : read? token with - | m <;> simp [numberArg, read, and_comm]

/-- Declining words and numbers in any order; the last number is the delay, and without one there is none. -/
structure Delays (args : List Bytes) (delay : Int64) (noreply : Bool) : Prop where
  each : ∀ token ∈ args, token = noreplyWord ∨ ∃ z : Int64, Signed token z.toInt
  last : (args.filter (· ≠ noreplyWord)).getLast?.elim (delay = 0) (Signed · delay.toInt)
  declined : noreply = true ↔ noreplyWord ∈ args

theorem delayArgs_from {start delay : Int64} {already noreply : Bool} :
    delayArgs start already args = .ok (delay, noreply) ↔
      (∀ token ∈ args, token = noreplyWord ∨ ∃ z : Int64, Signed token z.toInt) ∧
      (args.filter (· ≠ noreplyWord)).getLast?.elim (delay = start) (Signed · delay.toInt) ∧
      (noreply = true ↔ already = true ∨ noreplyWord ∈ args) := by
  induction args generalizing start already with
  | nil =>
    have same : already = noreply ↔ (noreply = true ↔ already = true) := by
      rw [eq_comm, Bool.eq_iff_iff]
    simp [delayArgs, same, eq_comm (a := start)]
  | cons token rest ih =>
    rw [List.forall_mem_cons, delayArgs]
    by_cases word : token = noreplyWord
    · subst word
      rw [if_pos rfl, ih]
      simp
    · rw [if_neg word]
      rcases read : Decimal.readInt64? token with - | n
      · have unsigned : ¬ ∃ z : Int64, Signed token z.toInt := by
          rintro ⟨z, number⟩
          rw [Decimal.readInt64?_eq_some.mpr number] at read
          cases read
        simp [word, unsigned]
      · have number : ∃ z : Int64, Signed token z.toInt := ⟨n, Decimal.readInt64?_eq_some.mp read⟩
        have same : delay = n ↔ Signed token delay.toInt := by
          rw [← Decimal.readInt64?_eq_some, read, Option.some.injEq, eq_comm]
        have last : ((token :: rest).filter (· ≠ noreplyWord)).getLast?.elim (delay = start) (Signed · delay.toInt) ↔
            (rest.filter (· ≠ noreplyWord)).getLast?.elim (delay = n) (Signed · delay.toInt) := by
          rw [List.filter_cons_of_pos (by simpa using word), List.getLast?_cons, same]
          cases (rest.filter (· ≠ noreplyWord)).getLast? <;> rfl
        rw [last]
        simp [ih, number, Ne.symm word]

theorem delayArgs_eq_ok {delay : Int64} {noreply : Bool} :
    delayArgs 0 false args = .ok (delay, noreply) ↔ Delays args delay noreply := by
  rw [delayArgs_from]
  simp only [Bool.false_eq_true, false_or]
  constructor
  · rintro ⟨each, last, declined⟩
    exact ⟨each, last, declined⟩
  · rintro ⟨each, last, declined⟩
    exact ⟨each, last, declined⟩

/-- The reply is declined by the next token or not at all; what follows it is ignored. -/
def Declines (args : List Bytes) (noreply : Bool) : Prop := noreply = true ↔ args.head? = some noreplyWord

theorem declines_iff {noreply : Bool} : Declines args noreply ↔ noreplyArg args = noreply := by
  unfold Declines noreplyArg
  rw [Bool.eq_iff_iff (a := args.head? == _), beq_iff_eq]
  exact Iff.comm

/-- Only `cas` has a token that names the write to store over. -/
inductive CasToken : StoreVerb → List Bytes → UInt64 → List Bytes → Prop where
  | named {token : Bytes} {rest : List Bytes} {cas : UInt64} (number : Unsigned token cas.toNat) :
      CasToken .cas (token :: rest) cas rest
  | absent {verb : StoreVerb} {rest : List Bytes} (other : verb ≠ .cas) : CasToken verb rest 0 rest

theorem casArg_eq_ok {α : Type} {verb : StoreVerb} {next : UInt64 × List Bytes → Except RequestError α} {a : α} :
    (if verb = .cas then numberArg Decimal.readUInt64? .invalidCas args >>= next else pure (0, args) >>= next) =
      .ok a ↔ ∃ cas rest, CasToken verb args cas rest ∧ next (cas, rest) = .ok a := by
  by_cases same : verb = .cas
  · subst same
    rw [if_pos rfl, bind_eq_ok]
    constructor
    · rintro ⟨⟨cas, rest⟩, taken, ended⟩
      obtain ⟨token, rfl, read⟩ := numberArg_eq_ok.mp taken
      exact ⟨cas, rest, .named (Decimal.readUInt64?_eq_some.mp read), ended⟩
    · rintro ⟨cas, rest, form, ended⟩
      cases form with
      | named number =>
        have read := Decimal.readUInt64?_eq_some.mpr number
        exact ⟨(cas, rest), numberArg_eq_ok.mpr ⟨_, rfl, read⟩, ended⟩
      | absent other => exact absurd rfl other
  · rw [if_neg same]
    constructor
    · intro ended
      exact ⟨0, args, .absent same, ended⟩
    · rintro ⟨cas, rest, form, ended⟩
      cases form with
      | named number => exact absurd rfl same
      | absent => exact ended

end Reading
end BlockCache

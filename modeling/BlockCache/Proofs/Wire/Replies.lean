import BlockCache.Proofs.Cache.Coherence
import BlockCache.Proofs.Text.LineEnds
import BlockCache.Proofs.Wire.Grammar
import BlockCache.Service.Session

/-!
# Replies of one line

Whatever its text is made from, a reply of one line ends with the first line end in it: numbers are digits,
the texts of errors are fixed but for what they quote, and what they quote is a piece of a line that was
read, or a key that could be sent.
-/

namespace BlockCache

open Bytes (crlf)

section Tokens

theorem infix_intercalate (sep : Bytes) {piece : Bytes} {pieces : List Bytes} (mem : piece ∈ pieces) :
    piece <:+: sep.intercalate pieces := by
  induction pieces with
  | nil => cases mem
  | cons first others ih =>
    cases others with
    | nil =>
      rw [List.mem_singleton.1 mem]
      simp
    | cons second others =>
      rw [List.intercalate_cons_cons]
      rcases List.mem_cons.1 mem with rfl | later
      · exact (List.prefix_append _ _).isInfix.trans (List.prefix_append _ _).isInfix
      · exact (ih later).trans (List.suffix_append _ _).isInfix

/-- A token is a part of its line. -/
theorem Bytes.infix_of_mem_words {line token : Bytes} (mem : token ∈ words line) : token <:+: line := by
  have inside := infix_intercalate [32] (List.mem_of_mem_filter mem)
  rwa [List.intercalate_splitOn] at inside

end Tokens

namespace Reading

/-- A key that is refused is one of the tokens. -/
def Blames (tokens : List Bytes) (x : Except RequestError α) : Prop :=
  ∀ text, x = .error (.invalidKey text) → ∃ token ∈ tokens, text = Utf8.lossy token

namespace Blames

variable {tokens : List Bytes}

theorem ok (value : α) : Blames tokens (.ok value) := nofun

theorem error {e : RequestError} (other : ∀ text, e ≠ .invalidKey text) : Blames (α := α) tokens (.error e) :=
  fun text refused => absurd (Except.error.inj refused) (other text)

theorem bind {x : Except RequestError α} {f : α → Except RequestError β} (first : Blames tokens x)
    (rest : ∀ value, Blames tokens (f value)) : Blames tokens (x >>= f) := by
  cases x with
  | error e =>
    rintro text ⟨⟩
    exact first text rfl
  | ok value => exact rest value

theorem throwIf {p : Prop} [Decidable p] {e : RequestError} (other : ∀ text, e ≠ .invalidKey text)
    {next : PUnit → Except RequestError α} (goes : ∀ u, Blames tokens (next u)) :
    Blames tokens (if p then throw e >>= next else next ⟨⟩) := by
  split
  · exact error other
  · exact goes _

theorem map {x : Except RequestError α} (blames : Blames tokens x) (f : α → β) : Blames tokens (x.map f) := by
  cases x with
  | error e =>
    rintro text ⟨⟩
    exact blames text rfl
  | ok value => exact ok _

theorem mono {more : List Bytes} {x : Except RequestError α} (blames : Blames tokens x) (also : tokens ⊆ more) :
    Blames more x := fun text refused =>
  (blames text refused).imp fun _ found => ⟨also found.1, found.2⟩

theorem keyArg (args : List Bytes) : Blames args (keyArg args) := by
  intro text refused
  cases args with
  | nil => cases refused
  | cons token args =>
    rw [Reading.keyArg] at refused
    split at refused
    · cases refused
    · split at refused
      · cases refused
      · cases refused
        exact ⟨token, List.mem_cons_self, rfl⟩

theorem numberArg {read? : Bytes → Option α} {fault : RequestError} (other : ∀ text, fault ≠ .invalidKey text)
    (args : List Bytes) : Blames tokens (numberArg read? fault args) := by
  cases args with
  | nil => exact error other
  | cons token args =>
    rw [Reading.numberArg]
    split
    · exact ok _
    · exact error other

theorem delayArgs (delay : Int64) (noreply : Bool) (args : List Bytes) : Blames tokens (delayArgs delay noreply args) := by
  induction args generalizing delay noreply with
  | nil => exact ok _
  | cons token args ih =>
    rw [Reading.delayArgs]
    split
    · exact ih _ _
    · split
      · exact ih _ _
      · exact error (by simp)

theorem keyArgs (args : List Bytes) : Blames args (keyArgs args) := by
  induction args with
  | nil => exact ok _
  | cons token args ih =>
    rw [Reading.keyArgs, List.mapM_cons]
    refine bind ?_ fun key => bind (ih.mono (List.subset_cons_self token args)) fun keys => ok _
    exact (map (keyArg [token]) _).mono (List.cons_subset_cons token (List.nil_subset args))

theorem storeArgs (verb : StoreVerb) (args : List Bytes) : Blames args (storeArgs verb args) := by
  refine (keyArg args).bind fun _ => (numberArg (by nofun) _).bind fun _ => (numberArg (by nofun) _).bind fun _ =>
    (numberArg (by nofun) _).bind fun (length, args) => ?_
  dsimp only
  split
  · exact (numberArg (by nofun) _).bind fun _ => throwIf (by nofun) fun _ => ok _
  · exact throwIf (by nofun) fun _ => ok _

theorem ofTokens (tokens : List Bytes) : Blames tokens (ofTokens tokens) := by
  cases tokens with
  | nil => exact error (by simp)
  | cons command args =>
    have args_of {β : Type} {x : Except RequestError β} (blames : Blames args x) : Blames (command :: args) x :=
      blames.mono (List.subset_cons_self command args)
    have get (withCas : Bool) : Blames args (getArgs withCas args) :=
      (keyArgs args).bind fun keys => throwIf (by nofun) fun _ => ok _
    have count (request : Key → UInt64 → Bool → Request) : Blames args (countArgs request args) :=
      (keyArg args).bind fun _ => (numberArg (by nofun) _).bind fun _ => ok _
    rw [Reading.ofTokens]
    split
    · exact args_of ((get false).map _)
    split
    · exact args_of ((get true).map _)
    split
    · exact args_of (storeArgs _ args)
    split
    · exact args_of (map ((keyArg args).bind fun _ => (delayArgs _ _ _).bind fun _ => ok _) _)
    split
    · exact args_of ((count _).map _)
    split
    · exact args_of ((count _).map _)
    split
    · exact args_of (map ((delayArgs _ _ _).bind fun _ => ok _) _)
    split
    · exact ok _
    split
    · exact ok _
    split
    · exact args_of (map ((numberArg (by nofun) _).bind fun _ => ok _) _)
    split
    · exact ok _
    · exact error (by simp)

end Blames

/-- A key that is refused is one piece of a line. -/
theorem unbroken_of_refused {arrived : Bytes} {text : String} (read : ofBytes arrived = .refused (.invalidKey text)) :
    ∃ token, text = Utf8.lossy token ∧ ¬ crlf <:+: token := by
  rcases cut : Bytes.splitLine arrived with - | ⟨line, rest⟩
  · rw [ofBytes, cut] at read
    dsimp only at read
    split at read <;> cases read
  · obtain ⟨rfl, unended⟩ := Bytes.splitLine_eq_some_iff.1 cut
    rw [ofBytes_line unended] at read
    rcases announced : ofTokens (Bytes.words line) with e | request | ⟨length, withData⟩
    · rw [announced] at read
      obtain rfl := Reading.refused.inj read
      obtain ⟨token, among, rfl⟩ := Blames.ofTokens _ text announced
      exact ⟨token, rfl, fun inside => unended (inside.trans (Bytes.infix_of_mem_words among))⟩
    · rw [announced] at read
      cases read
    · rw [announced] at read
      dsimp only at read
      rw [ofBlock] at read
      split at read <;> cases read

end Reading

namespace Bytes

theorem unbroken_of_not_mem {b : Bytes} (free : 13 ∉ b) : ¬ crlf <:+: b := fun inside =>
  free (inside.subset (by simp [crlf]))

/-- No digit is a carriage return. -/
theorem not_mem_ofString_toString (n : Nat) : 13 ∉ ofString (toString n) := by
  intro mem
  rw [show toString n = String.ofList (Nat.toDigits 10 n) from rfl, ofString_ofList] at mem
  obtain ⟨c, digit, inside⟩ := List.mem_flatMap.1 mem
  have value := toNat_eq_of_mem_encode inside (by decide)
  have digit := Nat.isDigit_of_mem_toDigits (by decide) (by decide) digit
  rw [Char.isDigit, Bool.and_eq_true, decide_eq_true_eq, decide_eq_true_eq] at digit
  have low : 48 ≤ c.toNat := digit.1
  rw [value] at low
  exact absurd low (by decide)

end Bytes

open Bytes (unbroken_of_not_mem)

theorem Key.unbroken_text {key : Key} (sendable : key.Sendable) : ¬ crlf <:+: Bytes.ofString key.text := by
  intro inside
  have mem : 13 ∈ key.bytes := (Utf8.crlf_of_lossy inside).subset (by simp [crlf])
  exact absurd (sendable.printable 13 mem).1 (by decide)

/-- Nothing that the store reports breaks its line. -/
theorem StoreError.unbroken_message {e : StoreError} (reported : Reported Key.Sendable e) :
    ¬ crlf <:+: Bytes.ofString e.message := by
  cases reported with
  | notANumber | contended => exact unbroken_of_not_mem (by decide)
  | store arises =>
    cases arises with
    | closed => exact unbroken_of_not_mem (by decide)
    | space requested available =>
      have worded : (outOfSpace requested available).message =
        "Out of space: requested " ++ toString requested ++ " bytes, " ++ toString available ++ " bytes free" := rfl
      apply unbroken_of_not_mem
      simp only [worded, Bytes.ofString_append, List.mem_append, not_or, Bytes.not_mem_ofString_toString, not_false_eq_true,
        and_true]
      decide
    | length written room =>
      have worded : (invalidRegion s!"write of {written} bytes into region of {room} bytes").message =
        "Invalid region: " ++
          ("write of " ++ toString written ++ " bytes into region of " ++ toString room.toNat ++ " bytes") := rfl
      apply unbroken_of_not_mem
      simp only [worded, Bytes.ofString_append, List.mem_append, not_or, Bytes.not_mem_ofString_toString, not_false_eq_true,
        and_true]
      decide
    | @unlinked key sendable =>
      have worded : (invalidRegion s!"eviction queue names unlinked key {key.text}").message =
        "Invalid region: eviction queue names unlinked key " ++ key.text := rfl
      rw [worded, Bytes.ofString_append]
      exact fun inside => key.unbroken_text sendable (Bytes.crlf_of_append (by decide) inside)

namespace Reply

/-- The replies are one line, and the only line end in it is its own. -/
def OneLine (replies : List Reply) : Prop := ∃ content, Bytes.splitLine (renderAll replies) = some (content, [])

/-- A reply that says something after a word without a line end. -/
theorem oneLine_of_unbroken {r : Reply} {word content : Bytes} (renders : r.render = line (word ++ content))
    (word_free : 13 ∉ word) (unbroken : ¬ crlf <:+: content) : OneLine [r] := by
  refine ⟨word ++ content, Bytes.splitLine_eq_some_iff.2 ⟨?_, fun inside => ?_⟩⟩
  · rw [renderAll, List.flatMap_singleton, renders, line, List.append_nil]
  · exact unbroken (Bytes.crlf_of_append word_free inside)

theorem oneLine_of_word {r : Reply} {word : Bytes} (renders : r.render = line word) (free : 13 ∉ word) :
    OneLine [r] := by
  rw [← List.append_nil word] at renders
  exact oneLine_of_unbroken renders free (by decide)

theorem oneLine_number (n : UInt64) : OneLine [number n] :=
  oneLine_of_word rfl (Decimal.not_mem_digits (by decide) _)

theorem oneLine_store (answer : StoreAnswer) : OneLine [answer.reply] := by
  cases answer <;> exact oneLine_of_word rfl (by decide)

theorem oneLine_delete (answer : DeleteAnswer) : OneLine [answer.reply] := by
  cases answer <;> exact oneLine_of_word rfl (by decide)

theorem oneLine_clientError {message : String} (unbroken : ¬ crlf <:+: Bytes.ofString message) :
    OneLine [clientError message] :=
  oneLine_of_unbroken rfl (by decide) unbroken

theorem oneLine_serverError {message : String} (unbroken : ¬ crlf <:+: Bytes.ofString message) :
    OneLine [serverError message] :=
  oneLine_of_unbroken rfl (by decide) unbroken

/-- Even a refusal that repeats what the client has sent is one line. -/
theorem oneLine_of_refused {arrived : Bytes} {e : RequestError} (read : Reading.ofBytes arrived = .refused e) :
    OneLine [e.reply] := by
  cases e with
  | invalidCommand text | valueTooLarge length => exact oneLine_of_word rfl (by decide)
  | invalidKey text =>
    obtain ⟨token, rfl, unbroken⟩ := Reading.unbroken_of_refused read
    apply oneLine_clientError
    rw [show (RequestError.invalidKey (Utf8.lossy token)).message = "Invalid key: " ++ Utf8.lossy token from rfl,
      Bytes.ofString_append]
    exact fun inside => unbroken (Utf8.crlf_of_lossy (Bytes.crlf_of_append (by decide) inside))
  | invalidFlags | invalidExptime | invalidLength | invalidNumber | invalidCas | keyTooLong | unexpectedData =>
    exact oneLine_clientError (unbroken_of_not_mem (by decide))

end Reply

end BlockCache

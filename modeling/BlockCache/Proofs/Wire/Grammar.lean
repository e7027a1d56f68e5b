import BlockCache.Proofs.Wire.Arguments
import BlockCache.Proofs.Wire.Lines

/-!
# The reader accepts its grammar and nothing else

The grammar says which lines announce which requests and which bytes are the wire form of a request. The
reader finds the wire form at the front of what has arrived if there is one, waits exactly while a short
line or an announced data block has not ended, and refuses everything else.
-/

namespace BlockCache.Reading

open Decimal (Unsigned Signed)

variable {command token line rest arrived : Bytes} {args tokens : List Bytes}

/-- The arguments of a storing line: key, flags, expiry, length, the token of `cas`, the declining word. -/
inductive StoreForm (verb : StoreVerb) : List Bytes → Announced → Prop where
  | mk {key : Key} {flagsToken expireToken lengthToken : Bytes} {more rest : List Bytes} {flags : UInt32}
      {expire : Int64} {length : Nat} {cas : UInt64} {noreply : Bool} (valid : key.Sendable)
      (flagged : Unsigned flagsToken flags.toNat) (timed : Signed expireToken expire.toInt)
      (sized : Unsigned lengthToken length) (fits : length ≤ 1048576) (guarded : CasToken verb more cas rest)
      (declines : Declines rest noreply) :
      StoreForm verb (key.bytes :: flagsToken :: expireToken :: lengthToken :: more)
        (.block length fun data => .store verb key flags expire data cas noreply)

/-- The lines that announce a request, by their tokens. -/
inductive LineForm : List Bytes → Announced → Prop where
  | get {command : Bytes} {keys : List Key} (named : Spells command (Bytes.ofString "get"))
      (asked : keys ≠ []) (valid : ∀ key ∈ keys, key.Sendable) :
      LineForm (command :: keys.map (·.bytes)) (.whole (.get keys false))
  | gets {command : Bytes} {keys : List Key} (named : Spells command (Bytes.ofString "gets"))
      (asked : keys ≠ []) (valid : ∀ key ∈ keys, key.Sendable) :
      LineForm (command :: keys.map (·.bytes)) (.whole (.get keys true))
  | store {command : Bytes} {args : List Bytes} {verb : StoreVerb} {announced : Announced}
      (named : Spells command (Bytes.ofString verb.name)) (form : StoreForm verb args announced) :
      LineForm (command :: args) announced
  | delete {command : Bytes} {key : Key} {args : List Bytes} {hold : Int64} {noreply : Bool}
      (named : Spells command (Bytes.ofString "delete")) (valid : key.Sendable)
      (delays : Delays args hold noreply) :
      LineForm (command :: key.bytes :: args) (.whole (.delete key hold noreply))
  | incr {command : Bytes} {key : Key} {token : Bytes} {args : List Bytes} {delta : UInt64} {noreply : Bool}
      (named : Spells command (Bytes.ofString "incr")) (valid : key.Sendable)
      (number : Unsigned token delta.toNat) (declines : Declines args noreply) :
      LineForm (command :: key.bytes :: token :: args) (.whole (.incr key delta noreply))
  | decr {command : Bytes} {key : Key} {token : Bytes} {args : List Bytes} {delta : UInt64} {noreply : Bool}
      (named : Spells command (Bytes.ofString "decr")) (valid : key.Sendable)
      (number : Unsigned token delta.toNat) (declines : Declines args noreply) :
      LineForm (command :: key.bytes :: token :: args) (.whole (.decr key delta noreply))
  | flushAll {command : Bytes} {args : List Bytes} {delay : Int64} {noreply : Bool}
      (named : Spells command (Bytes.ofString "flush_all")) (delays : Delays args delay noreply) :
      LineForm (command :: args) (.whole (.flushAll delay noreply))
  | stats {command : Bytes} {args : List Bytes} (named : Spells command (Bytes.ofString "stats")) :
      LineForm (command :: args) (.whole (.stats (args.headD [])))
  | version {command : Bytes} {args : List Bytes} (named : Spells command (Bytes.ofString "version")) :
      LineForm (command :: args) (.whole .version)
  | verbosity {command token : Bytes} {args : List Bytes} {level : UInt32} {noreply : Bool}
      (named : Spells command (Bytes.ofString "verbosity")) (number : Unsigned token level.toNat)
      (declines : Declines args noreply) :
      LineForm (command :: token :: args) (.whole (.verbosity noreply))
  | quit {command : Bytes} {args : List Bytes} (named : Spells command (Bytes.ofString "quit")) :
      LineForm (command :: args) (.whole .quit)

/-- The bytes that are a request: a line with its end and, after a storing line, exactly as many bytes of
data as it announces and one more line end. -/
inductive WireForm : Request → Bytes → Prop where
  | line {line : Bytes} {request : Request} (unended : ¬ Bytes.crlf <:+: line)
      (form : LineForm (Bytes.words line) (.whole request)) : WireForm request (line ++ Bytes.crlf)
  | block {line data : Bytes} {length : Nat} {withData : Bytes → Request} (unended : ¬ Bytes.crlf <:+: line)
      (form : LineForm (Bytes.words line) (.block length withData)) (whole : data.length = length) :
      WireForm (withData data) (line ++ Bytes.crlf ++ data ++ Bytes.crlf)

/-- The bytes that have no answer yet: a short line that has not ended, and a storing line whose data block
has not arrived with its line end. -/
inductive Unfinished : Bytes → Prop where
  | line {arrived : Bytes} (unended : ¬ Bytes.crlf <:+: arrived) (short : arrived.length ≤ maxLineLength) :
      Unfinished arrived
  | block {line rest : Bytes} {length : Nat} {withData : Bytes → Request} (unended : ¬ Bytes.crlf <:+: line)
      (form : LineForm (Bytes.words line) (.block length withData)) (short : rest.length < length + 2) :
      Unfinished (line ++ Bytes.crlf ++ rest)

theorem getArgs_announces {withCas : Bool} {announced : Announced} :
    (getArgs withCas args).map .whole = .ok announced ↔
      ∃ keys : List Key, keys ≠ [] ∧ args = keys.map (·.bytes) ∧ (∀ key ∈ keys, key.Sendable) ∧
        announced = .whole (.get keys withCas) := by
  unfold getArgs
  simp only [map_eq_ok, bind_eq_ok, keyArgs_eq_ok, unless_eq_ok, List.isEmpty_iff]
  constructor
  · rintro ⟨_, ⟨keys, ⟨rfl, valid⟩, asked, ⟨⟩⟩, rfl⟩
    exact ⟨keys, asked, rfl, valid, rfl⟩
  · rintro ⟨keys, asked, rfl, valid, rfl⟩
    exact ⟨_, ⟨keys, ⟨rfl, valid⟩, asked, rfl⟩, rfl⟩

theorem deleteArgs_announces {announced : Announced} :
    (deleteArgs args).map .whole = .ok announced ↔
      ∃ (key : Key) (rest : List Bytes) (hold : Int64) (noreply : Bool), args = key.bytes :: rest ∧
        key.Sendable ∧ Delays rest hold noreply ∧ announced = .whole (.delete key hold noreply) := by
  unfold deleteArgs
  simp only [map_eq_ok, bind_eq_ok, Prod.exists, keyArg_eq_ok, delayArgs_eq_ok]
  constructor
  · rintro ⟨_, ⟨key, rest, ⟨rfl, valid⟩, hold, noreply, delays, ⟨⟩⟩, rfl⟩
    exact ⟨key, rest, hold, noreply, rfl, valid, delays, rfl⟩
  · rintro ⟨key, rest, hold, noreply, rfl, valid, delays, rfl⟩
    exact ⟨_, ⟨key, rest, ⟨rfl, valid⟩, hold, noreply, delays, rfl⟩, rfl⟩

theorem countArgs_announces {ask : Key → UInt64 → Bool → Request} {announced : Announced} :
    (countArgs ask args).map .whole = .ok announced ↔
      ∃ (key : Key) (token : Bytes) (rest : List Bytes) (delta : UInt64) (noreply : Bool),
        args = key.bytes :: token :: rest ∧ key.Sendable ∧ Unsigned token delta.toNat ∧
          Declines rest noreply ∧ announced = .whole (ask key delta noreply) := by
  unfold countArgs
  simp only [map_eq_ok, bind_eq_ok, Prod.exists, keyArg_eq_ok, numberArg_eq_ok, Decimal.readUInt64?_eq_some]
  constructor
  · rintro ⟨_, ⟨key, _, ⟨rfl, valid⟩, delta, rest, ⟨token, rfl, number⟩, ⟨⟩⟩, rfl⟩
    exact ⟨key, token, rest, delta, _, rfl, valid, number, declines_iff.mpr rfl, rfl⟩
  · rintro ⟨key, token, rest, delta, noreply, rfl, valid, number, declines, rfl⟩
    obtain rfl := declines_iff.mp declines
    exact ⟨_, ⟨key, _, ⟨rfl, valid⟩, delta, rest, ⟨token, rfl, number⟩, rfl⟩, rfl⟩

theorem flushArgs_announces {announced : Announced} :
    (flushArgs args).map .whole = .ok announced ↔
      ∃ (delay : Int64) (noreply : Bool), Delays args delay noreply ∧
        announced = .whole (.flushAll delay noreply) := by
  unfold flushArgs
  simp only [map_eq_ok, bind_eq_ok, Prod.exists, delayArgs_eq_ok]
  constructor
  · rintro ⟨_, ⟨delay, noreply, delays, ⟨⟩⟩, rfl⟩
    exact ⟨delay, noreply, delays, rfl⟩
  · rintro ⟨delay, noreply, delays, rfl⟩
    exact ⟨_, ⟨delay, noreply, delays, rfl⟩, rfl⟩

theorem verbosityArgs_announces {announced : Announced} :
    (verbosityArgs args).map .whole = .ok announced ↔
      ∃ (token : Bytes) (rest : List Bytes) (level : UInt32) (noreply : Bool), args = token :: rest ∧
        Unsigned token level.toNat ∧ Declines rest noreply ∧ announced = .whole (.verbosity noreply) := by
  unfold verbosityArgs
  simp only [map_eq_ok, bind_eq_ok, Prod.exists, numberArg_eq_ok, Decimal.readUInt32?_eq_some]
  constructor
  · rintro ⟨_, ⟨level, rest, ⟨token, rfl, number⟩, ⟨⟩⟩, rfl⟩
    exact ⟨token, rest, level, _, rfl, number, declines_iff.mpr rfl, rfl⟩
  · rintro ⟨token, rest, level, noreply, rfl, number, declines, rfl⟩
    obtain rfl := declines_iff.mp declines
    exact ⟨_, ⟨level, rest, ⟨token, rfl, number⟩, rfl⟩, rfl⟩

theorem storeArgs_announces {verb : StoreVerb} {announced : Announced} :
    storeArgs verb args = .ok announced ↔ StoreForm verb args announced := by
  unfold storeArgs
  simp only [bind_eq_ok, Prod.exists, keyArg_eq_ok, numberArg_eq_ok, casArg_eq_ok, unless_eq_ok,
    Decimal.readUInt32?_eq_some, Decimal.readInt64?_eq_some, Decimal.readNat?_eq_some]
  constructor
  · rintro ⟨key, _, ⟨rfl, valid⟩, flags, _, ⟨_, rfl, flagged⟩, expire, _, ⟨_, rfl, timed⟩, length, more,
      ⟨_, rfl, sized, -⟩, cas, rest, guarded, fits, ⟨⟩⟩
    exact .mk valid flagged timed sized (Nat.le_of_not_lt fits) guarded (declines_iff.mpr rfl)
  · rintro ⟨valid, flagged, timed, sized, fits, guarded, declines⟩
    obtain rfl := declines_iff.mp declines
    have inRange := Nat.le_trans fits (by decide : 1048576 ≤ UInt64.size - 1)
    exact ⟨_, _, ⟨rfl, valid⟩, _, _, ⟨_, rfl, flagged⟩, _, _, ⟨_, rfl, timed⟩, _, _, ⟨_, rfl, sized, inRange⟩,
      _, _, guarded, Nat.not_lt.mpr fits, rfl⟩

theorem isSmall_verb (verb : StoreVerb) : isSmall (Bytes.ofString verb.name) = true := by
  cases verb <;> decide

/-- A word that spells one name is compared with another as the names are. -/
theorem names_of_spells {a : String} (named : Spells command (Bytes.ofString a))
    (small : isSmall (Bytes.ofString a) = true) (b : String) :
    names command b = (Bytes.ofString a == Bytes.ofString b) := by
  have same : names command a = true := (names_iff small).mpr named
  unfold names at *
  rw [beq_iff_eq.mp same]

theorem lineForm_of_ofTokens {announced : Announced} (read : ofTokens tokens = .ok announced) :
    LineForm tokens announced := by
  -- The first name that matches decides which form the line has.
  unfold ofTokens at read
  split at read
  · cases read
  split at read
  · rename_i named
    obtain ⟨keys, asked, rfl, valid, rfl⟩ := getArgs_announces.mp read
    exact .get ((names_iff (by decide)).mp named) asked valid
  split at read
  · rename_i named
    obtain ⟨keys, asked, rfl, valid, rfl⟩ := getArgs_announces.mp read
    exact .gets ((names_iff (by decide)).mp named) asked valid
  split at read
  · rename_i verb found
    have named := List.find?_some (p := fun verb : StoreVerb => names _ verb.name) found
    exact .store ((names_iff (isSmall_verb verb)).mp named) (storeArgs_announces.mp read)
  split at read
  · rename_i named
    obtain ⟨key, rest, hold, noreply, rfl, valid, delays, rfl⟩ := deleteArgs_announces.mp read
    exact .delete ((names_iff (by decide)).mp named) valid delays
  split at read
  · rename_i named
    obtain ⟨key, token, rest, delta, noreply, rfl, valid, number, declines, rfl⟩ := countArgs_announces.mp read
    exact .incr ((names_iff (by decide)).mp named) valid number declines
  split at read
  · rename_i named
    obtain ⟨key, token, rest, delta, noreply, rfl, valid, number, declines, rfl⟩ := countArgs_announces.mp read
    exact .decr ((names_iff (by decide)).mp named) valid number declines
  split at read
  · rename_i named
    obtain ⟨delay, noreply, delays, rfl⟩ := flushArgs_announces.mp read
    exact .flushAll ((names_iff (by decide)).mp named) delays
  split at read
  · rename_i named
    obtain rfl := Except.ok.inj read
    exact .stats ((names_iff (by decide)).mp named)
  split at read
  · rename_i named
    obtain rfl := Except.ok.inj read
    exact .version ((names_iff (by decide)).mp named)
  split at read
  · rename_i named
    obtain ⟨token, rest, level, noreply, rfl, number, declines, rfl⟩ := verbosityArgs_announces.mp read
    exact .verbosity ((names_iff (by decide)).mp named) number declines
  split at read
  · rename_i named
    obtain rfl := Except.ok.inj read
    exact .quit ((names_iff (by decide)).mp named)
  · cases read

theorem ofTokens_of_lineForm {announced : Announced} (form : LineForm tokens announced) :
    ofTokens tokens = .ok announced := by
  cases form with
  | get named asked valid | gets named asked valid =>
    simp only [ofTokens, names_of_spells named (by decide)]
    exact getArgs_announces.mpr ⟨_, asked, rfl, valid, rfl⟩
  | @store _ _ verb _ named form =>
    simp only [ofTokens, names_of_spells named (isSmall_verb verb)]
    cases verb <;> exact storeArgs_announces.mpr form
  | delete named valid delays =>
    simp only [ofTokens, names_of_spells named (by decide)]
    exact deleteArgs_announces.mpr ⟨_, _, _, _, rfl, valid, delays, rfl⟩
  | incr named valid number declines | decr named valid number declines =>
    simp only [ofTokens, names_of_spells named (by decide)]
    exact countArgs_announces.mpr ⟨_, _, _, _, _, rfl, valid, number, declines, rfl⟩
  | flushAll named delays =>
    simp only [ofTokens, names_of_spells named (by decide)]
    exact flushArgs_announces.mpr ⟨_, _, delays, rfl⟩
  | verbosity named number declines =>
    simp only [ofTokens, names_of_spells named (by decide)]
    exact verbosityArgs_announces.mpr ⟨_, _, _, _, rfl, number, declines, rfl⟩
  | stats named | version named | quit named =>
    simp only [ofTokens, names_of_spells named (by decide)]
    rfl

theorem ofBytes_line (unended : ¬ Bytes.crlf <:+: line) (rest : Bytes) :
    ofBytes (line ++ Bytes.crlf ++ rest) =
      match ofTokens (Bytes.words line) with
      | .error e => .refused e
      | .ok (.whole request) => .complete request (line.length + 2)
      | .ok (.block length withData) => ofBlock (line.length + 2) length withData rest := by
  have cut : Bytes.splitLine (line ++ Bytes.crlf ++ rest) = some (line, rest) :=
    Bytes.splitLine_eq_some_iff.mpr ⟨rfl, unended⟩
  rcases read : ofTokens (Bytes.words line) with error | request | ⟨length, withData⟩
  all_goals
    rw [ofBytes, cut]
    dsimp only
    rw [Bytes.tokens_eq_words, read]

/-- A wire form at the front of what has arrived is read, whatever follows it. -/
theorem ofBytes_of_wireForm {request : Request} {wire : Bytes} (form : WireForm request wire) (tail : Bytes) :
    ofBytes (wire ++ tail) = .complete request wire.length := by
  cases form with
  | line unended form =>
    rw [ofBytes_line unended, ofTokens_of_lineForm form, List.length_append]
    rfl
  | @block line data _ withData unended form whole =>
    subst whole
    rw [List.append_assoc _ data, List.append_assoc _ (data ++ Bytes.crlf), ofBytes_line unended,
      ofTokens_of_lineForm form]
    dsimp only
    rw [List.append_assoc]
    refine (ofBlock_data data 13 10 tail).trans ?_
    simp [Bytes.crlf]
    omega

theorem ofBytes_of_unfinished (form : Unfinished arrived) : ofBytes arrived = .needMore := by
  cases form with
  | line unended short =>
    rw [ofBytes_of_splitLine_eq_none (Bytes.splitLine_eq_none_iff.mpr unended), if_neg (Nat.not_lt.mpr short)]
  | block unended form short =>
    rw [ofBytes_line unended, ofTokens_of_lineForm form]
    exact ofBlock_of_short short

/-- What the grammar says of the answer to the bytes that have arrived. -/
def Answers (arrived : Bytes) : Reading → Prop
  | .complete request consumed => ∃ wire tail, arrived = wire ++ tail ∧ wire.length = consumed ∧ WireForm request wire
  | .needMore => Unfinished arrived
  | .refused _ => True

theorem answers_block {length : Nat} {withData : Bytes → Request} (unended : ¬ Bytes.crlf <:+: line)
    (form : LineForm (Bytes.words line) (.block length withData)) (rest : Bytes) :
    Answers (line ++ Bytes.crlf ++ rest) (ofBlock (line.length + 2) length withData rest) := by
  by_cases short : rest.length < length + 2
  · rw [ofBlock_of_short short]
    exact .block unended form short
  · -- Two more bytes than the data: they are its line end or they are not.
    obtain ⟨data, a, b, tail, rfl, rfl⟩ := exists_data (Nat.le_of_not_lt short)
    rw [ofBlock_data]
    split
    · rename_i crlf
      obtain ⟨rfl, rfl⟩ := crlf
      refine ⟨line ++ Bytes.crlf ++ data ++ Bytes.crlf, tail, ?_, ?_, .block unended form rfl⟩
      · simp [Bytes.crlf]
      · simp [Bytes.crlf]
        omega
    · trivial

theorem answers (arrived : Bytes) : Answers arrived (ofBytes arrived) := by
  rcases cut : Bytes.splitLine arrived with - | ⟨line, rest⟩
  · rw [ofBytes_of_splitLine_eq_none cut]
    split
    · trivial
    · rename_i short
      exact .line (Bytes.splitLine_eq_none_iff.mp cut) (Nat.le_of_not_lt short)
  · obtain ⟨rfl, unended⟩ := Bytes.splitLine_eq_some_iff.mp cut
    rw [ofBytes_line unended]
    rcases announced : ofTokens (Bytes.words line) with error | request | ⟨length, withData⟩
    · trivial
    · refine ⟨line ++ Bytes.crlf, rest, rfl, ?_, .line unended (lineForm_of_ofTokens announced)⟩
      rw [List.length_append]
      rfl
    · exact answers_block unended (lineForm_of_ofTokens announced) rest

theorem ofBytes_eq_complete_iff {request : Request} {consumed : Nat} :
    ofBytes arrived = .complete request consumed ↔
      consumed ≤ arrived.length ∧ WireForm request (arrived.take consumed) := by
  constructor
  · intro read
    have answer := answers arrived
    rw [read] at answer
    obtain ⟨wire, tail, rfl, rfl, form⟩ := answer
    rw [List.take_left, List.length_append]
    exact ⟨Nat.le_add_right _ _, form⟩
  · rintro ⟨fits, form⟩
    have read := ofBytes_of_wireForm form (arrived.drop consumed)
    rw [List.take_append_drop, List.length_take, Nat.min_eq_left fits] at read
    exact read

theorem ofBytes_eq_needMore_iff : ofBytes arrived = .needMore ↔ Unfinished arrived := by
  constructor
  · intro read
    have answer := answers arrived
    rw [read] at answer
    exact answer
  · exact ofBytes_of_unfinished

/-- Every sequence of bytes is classified: it begins with the wire form of one request, which is read; or
its line or its data block has not ended, and the reader waits; or it is refused. -/
theorem ofBytes_grammar (arrived : Bytes) :
    (∀ request consumed, ofBytes arrived = .complete request consumed ↔
      consumed ≤ arrived.length ∧ WireForm request (arrived.take consumed)) ∧
    (ofBytes arrived = .needMore ↔ Unfinished arrived) ∧
    ((∃ error, ofBytes arrived = .refused error) ↔
      ¬ Unfinished arrived ∧ ∀ request wire, WireForm request wire → ¬ wire <+: arrived) := by
  refine ⟨fun request consumed => ofBytes_eq_complete_iff, ofBytes_eq_needMore_iff, ?_⟩
  constructor
  · rintro ⟨error, refused⟩
    refine ⟨fun unfinished => ?_, ?_⟩
    · rw [ofBytes_of_unfinished unfinished] at refused
      cases refused
    · rintro request wire form ⟨tail, rfl⟩
      rw [ofBytes_of_wireForm form tail] at refused
      cases refused
  · rintro ⟨finished, none⟩
    have answer := answers arrived
    rcases read : ofBytes arrived with ⟨request, consumed⟩ | - | error
    · rw [read] at answer
      obtain ⟨wire, tail, rfl, -, form⟩ := answer
      exact absurd (List.prefix_append wire tail) (none request wire form)
    · rw [read] at answer
      exact absurd answer finished
    · exact ⟨error, rfl⟩

end BlockCache.Reading

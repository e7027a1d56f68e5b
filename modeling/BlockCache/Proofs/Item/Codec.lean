import BlockCache.Item.Codec
import Mathlib.Data.List.Basic

/-!
# Reading items back

Bytes that are long enough fall into the fields of a header and the data behind it. Decoding reads the word in each
field, and writing the words again gives the same bytes, but for the byte that says whether the item is held: any
byte but 0 says so, and 1 is written. The stored form of an item decodes to the item.
-/

namespace BlockCache

namespace LittleEndian

theorem ofBytes_lt (b : Bytes) : ofBytes b < Nat.pow 256 b.length := by
  have whole := ofBytes_toBytes b.length (ofBytes b)
  rw [toBytes_ofBytes] at whole
  rw [whole]
  exact Nat.mod_lt _ (Nat.pow_pos (by decide))

theorem toBytes_toUInt32 {b : Bytes} (length : b.length = 4) : toBytes 4 (ofBytes b).toUInt32.toNat = b := by
  have fits := ofBytes_lt b
  rw [length] at fits
  rw [Nat.toUInt32, UInt32.toNat_ofNat_of_lt' fits, ← length, toBytes_ofBytes]

theorem toBytes_toUInt64 {b : Bytes} (length : b.length = 8) : toBytes 8 (ofBytes b).toUInt64.toNat = b := by
  have fits := ofBytes_lt b
  rw [length] at fits
  rw [Nat.toUInt64, UInt64.toNat_ofNat_of_lt' fits, ← length, toBytes_ofBytes]

theorem toUInt32_toBytes (w : UInt32) : (ofBytes (toBytes 4 w.toNat)).toUInt32 = w := by
  rw [ofBytes_toBytes, Nat.mod_eq_of_lt (show w.toNat < Nat.pow 256 4 from w.toNat_lt)]
  exact UInt32.ofNat_toNat

theorem toUInt64_toBytes (w : UInt64) : (ofBytes (toBytes 8 w.toNat)).toUInt64 = w := by
  rw [ofBytes_toBytes, Nat.mod_eq_of_lt (show w.toNat < Nat.pow 256 8 from w.toNat_lt)]
  exact UInt64.ofNat_toNat

end LittleEndian

namespace Item

open LittleEndian

/-- The fields of a header, and the data behind it. -/
structure Layout where
  flags : Bytes
  expire : Bytes
  storedAt : Bytes
  cas : Bytes
  held : UInt8
  heldUntil : Bytes
  data : Bytes
  flags_length : flags.length = 4
  expire_length : expire.length = 8
  storedAt_length : storedAt.length = 8
  cas_length : cas.length = 8
  heldUntil_length : heldUntil.length = 8

namespace Layout

attribute [simp] flags_length expire_length storedAt_length cas_length heldUntil_length

variable (l : Layout)

def bytes : Bytes := l.flags ++ l.expire ++ l.storedAt ++ l.cas ++ [l.held] ++ l.heldUntil ++ l.data

/-- The item that the fields say. -/
def item (key : Key) : Item where
  key
  flags := (ofBytes l.flags).toUInt32
  expire := (ofBytes l.expire).toUInt64.toInt64
  storedAt := (ofBytes l.storedAt).toUInt64.toInt64
  cas := (ofBytes l.cas).toUInt64
  held := l.held.toNat != 0
  heldUntil := (ofBytes l.heldUntil).toUInt64.toInt64
  data := l.data

theorem length_bytes : l.bytes.length = headerLength + l.data.length := by
  simp [bytes, headerLength]
  omega

theorem getElem?_bytes : l.bytes[28]? = some l.held := by
  have front : (l.flags ++ l.expire ++ l.storedAt ++ l.cas).length = 28 := by simp
  rw [bytes, List.append_assoc, List.append_assoc, List.getElem?_append_right (by omega), front]
  rfl

/-- A field is read where it lies. -/
theorem field_bytes (front word : Bytes) {rest : Bytes} (split : l.bytes = front ++ (word ++ rest)) :
    field l.bytes front.length word.length = ofBytes word := by
  rw [field, split, List.drop_left, List.take_left]

theorem decode_bytes (key : Key) : decode key l.bytes = .ok (l.item key) := by
  have long : ¬ l.bytes.length < headerLength := by
    rw [length_bytes]
    omega
  have flags := l.field_bytes [] l.flags (by simp only [bytes, List.append_assoc]; rfl)
  have expire := l.field_bytes l.flags l.expire (by simp only [bytes, List.append_assoc]; rfl)
  have storedAt := l.field_bytes (l.flags ++ l.expire) l.storedAt (by simp only [bytes, List.append_assoc]; rfl)
  have cas := l.field_bytes (l.flags ++ l.expire ++ l.storedAt) l.cas (by simp only [bytes, List.append_assoc]; rfl)
  have held := l.field_bytes (l.flags ++ l.expire ++ l.storedAt ++ l.cas) [l.held]
    (by simp only [bytes, List.append_assoc]; rfl)
  have heldUntil := l.field_bytes (l.flags ++ l.expire ++ l.storedAt ++ l.cas ++ [l.held]) l.heldUntil
    (by simp only [bytes, List.append_assoc]; rfl)
  simp only [List.length_append, List.length_cons, List.length_nil, flags_length, expire_length, storedAt_length,
    cas_length, heldUntil_length, Nat.zero_add, Nat.reduceAdd] at flags expire storedAt cas held heldUntil
  have data : l.bytes.drop headerLength = l.data := by
    have front : (l.flags ++ l.expire ++ l.storedAt ++ l.cas ++ [l.held] ++ l.heldUntil).length = headerLength := by
      simp [headerLength]
    rw [bytes, ← front, List.drop_left]
  have byte : ofBytes [l.held] = l.held.toNat := by simp [ofBytes]
  rw [decode, if_neg long, flags, expire, storedAt, cas, held, heldUntil, data, byte]
  rfl

/-- The words of the fields give the fields back, but the byte of the hold is written as 0 or 1. -/
theorem encode_item (key : Key) : (l.item key).encode = { l with held := if l.held = 0 then 0 else 1 }.bytes := by
  have held : (if (l.item key).held then 1 else 0) = if l.held = 0 then (0 : UInt8) else 1 := by
    by_cases zero : l.held = 0
    · simp [item, zero]
    · have : l.held.toNat ≠ 0 := fun same => zero (UInt8.toNat_inj.1 same)
      simp [item, zero, this]
  rw [encode, held]
  simp only [item, bytes, UInt64.toUInt64_toInt64, toBytes_toUInt32 l.flags_length, toBytes_toUInt64 l.expire_length,
    toBytes_toUInt64 l.storedAt_length, toBytes_toUInt64 l.cas_length, toBytes_toUInt64 l.heldUntil_length]

theorem encode_item_eq_iff (key : Key) : (l.item key).encode = l.bytes ↔ l.held = 0 ∨ l.held = 1 := by
  rw [encode_item]
  constructor
  · intro same
    have byte := getElem?_bytes { l with held := if l.held = 0 then 0 else 1 }
    rw [same, getElem?_bytes, Option.some.injEq] at byte
    by_cases zero : l.held = 0
    · exact .inl zero
    · exact .inr (byte.trans (if_neg zero))
  · rintro (zero | one)
    · rw [← zero]
      simp
    · simp [bytes, one]

/-- Bytes that are no shorter than a header fall into its fields. -/
theorem exists_bytes_eq {b : Bytes} (long : headerLength ≤ b.length) : ∃ l : Layout, l.bytes = b := by
  rw [headerLength] at long
  let l : Layout := {
    flags := b.take 4
    expire := (b.drop 4).take 8
    storedAt := (b.drop 12).take 8
    cas := (b.drop 20).take 8
    held := b[28]
    heldUntil := (b.drop 29).take 8
    data := b.drop 37
    flags_length := by simp; omega
    expire_length := by simp; omega
    storedAt_length := by simp; omega
    cas_length := by simp; omega
    heldUntil_length := by simp; omega }
  have held : [b[28]] ++ b.drop 29 = b.drop 28 := List.getElem_cons_drop ..
  have cut (n width : Nat) : (b.drop n).take width ++ b.drop (n + width) = b.drop n := by
    rw [← List.drop_drop, List.take_append_drop]
  refine ⟨l, ?_⟩
  simp only [l, bytes, List.append_assoc]
  rw [cut 29, held, cut 20, cut 12, cut 4, List.take_append_drop]

end Layout

/-- The fields that an item is stored in. -/
def layout (i : Item) : Layout where
  flags := toBytes 4 i.flags.toNat
  expire := toBytes 8 i.expire.toUInt64.toNat
  storedAt := toBytes 8 i.storedAt.toUInt64.toNat
  cas := toBytes 8 i.cas.toNat
  held := if i.held then 1 else 0
  heldUntil := toBytes 8 i.heldUntil.toUInt64.toNat
  data := i.data
  flags_length := length_toBytes ..
  expire_length := length_toBytes ..
  storedAt_length := length_toBytes ..
  cas_length := length_toBytes ..
  heldUntil_length := length_toBytes ..

/-- The stored form of an item read under any key is the item under that key. -/
theorem decode_encode (key : Key) (i : Item) : decode key i.encode = .ok { i with key } := by
  have held : (i.layout.held.toNat != 0) = i.held := by
    cases same : i.held <;> simp [layout, same]
  rw [show i.encode = i.layout.bytes from rfl, Layout.decode_bytes, Layout.item, held]
  simp only [layout, toUInt32_toBytes, toUInt64_toBytes, Int64.toInt64_toUInt64]

/-- Decoding undoes encoding, so items of one key are told apart by their stored forms. Bytes decode unless they are
too short for a header, and they are the stored form of what they decode to unless the byte of the hold is neither 0
nor 1. -/
theorem decode_inverts_encode (i : Item) :
    i.encode.length = i.encodedLength ∧ decode i.key i.encode = .ok i ∧
    (∀ j : Item, j.key = i.key → j.encode = i.encode → j = i) ∧
    ∀ (key : Key) (b : Bytes),
      ((∃ e, decode key b = .error e) ↔ b.length < 37) ∧
      (∀ e, decode key b = .error e → ∃ text, e = .decoding text) ∧
      ∀ j, decode key b = .ok j →
        j.key = key ∧ j.encodedLength = b.length ∧ (j.encode = b ↔ b[28]? = some 0 ∨ b[28]? = some 1) := by
  have inverse (j : Item) : decode j.key j.encode = .ok j := decode_encode j.key j
  refine ⟨i.length_encode, inverse i, fun j keyed same => ?_, fun key b => ?_⟩
  · have both := inverse j
    rw [same, keyed, inverse i] at both
    exact (Except.ok.inj both).symm
  · rcases Nat.lt_or_ge b.length headerLength with short | long
    · obtain ⟨text, refused⟩ : ∃ text, decode key b = .error (.decoding text) := ⟨_, if_pos short⟩
      rw [refused]
      exact ⟨⟨fun _ => short, fun _ => ⟨_, rfl⟩⟩, fun e raised => ⟨_, (Except.error.inj raised).symm⟩, nofun⟩
    · obtain ⟨l, rfl⟩ := Layout.exists_bytes_eq long
      rw [l.decode_bytes]
      refine ⟨⟨nofun, fun short => absurd long (Nat.not_le.2 short)⟩, nofun, ?_⟩
      rintro j ⟨⟩
      refine ⟨rfl, l.length_bytes.symm, ?_⟩
      rw [l.encode_item_eq_iff, l.getElem?_bytes, Option.some.injEq, Option.some.injEq]

end Item
end BlockCache

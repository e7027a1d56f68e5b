import BlockCache.Text.Bytes

/-!
# Little-endian words

Numbers as a fixed count of bytes, least significant first. Writing `width` bytes keeps a number
modulo `256 ^ width`, and reading undoes writing.
-/

namespace BlockCache.LittleEndian

/-- The low `width` bytes of a number. -/
def toBytes : (width : Nat) → (n : Nat) → Bytes
  | 0, _ => []
  | width + 1, n => n.toUInt8 :: toBytes width (n / 256)

/-- The number that some bytes stand for. -/
def ofBytes (b : Bytes) : Nat := b.foldr (fun byte acc => byte.toNat + 256 * acc) 0

@[simp] theorem length_toBytes (width n : Nat) : (toBytes width n).length = width := by
  induction width generalizing n with
  | zero => rfl
  | succ width ih => simp [toBytes, ih]

theorem ofBytes_toBytes (width n : Nat) : ofBytes (toBytes width n) = n % Nat.pow 256 width := by
  induction width generalizing n with
  | zero => simp [toBytes, ofBytes, Nat.mod_one]
  | succ width ih =>
    have tail : List.foldr (fun byte acc => UInt8.toNat byte + 256 * acc) 0 (toBytes width (n / 256)) =
        n / 256 % Nat.pow 256 width := ih (n / 256)
    have head : n.toUInt8.toNat = n % 256 := by simp [Nat.toUInt8]
    have split : n % (256 * Nat.pow 256 width) = n % 256 + 256 * (n / 256 % Nat.pow 256 width) := Nat.mod_mul
    have whole : Nat.pow 256 (width + 1) = 256 * Nat.pow 256 width := Nat.mul_comm ..
    simp only [toBytes, ofBytes, List.foldr_cons, tail, head]
    rw [whole, split]

theorem toBytes_ofBytes (b : Bytes) : toBytes b.length (ofBytes b) = b := by
  induction b with
  | nil => rfl
  | cons x xs ih =>
    have small := x.toNat_lt
    have quotient : (x.toNat + 256 * ofBytes xs) / 256 = ofBytes xs := by omega
    have head : (x.toNat + 256 * ofBytes xs).toUInt8 = x := by
      apply UInt8.toNat_inj.1
      simp [Nat.toUInt8]
    change (x.toNat + 256 * ofBytes xs).toUInt8 :: toBytes xs.length ((x.toNat + 256 * ofBytes xs) / 256) = _
    rw [quotient, head, ih]

end BlockCache.LittleEndian

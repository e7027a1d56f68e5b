import Std.Data.TreeMap.Lemmas

/-!
# Bitmaps

Which blocks of an arena are in use, one bit for each, 64 to a word. Runs of blocks are marked word by
word, and a word in which every block is used is passed over whole in the search for a free run.
`isUsed` is the view: `isUsed_markRun` and `isUsed_unmarkRun` say what a mark does to it.
-/

namespace BlockCache

/-- The blocks in use, 64 to a word. A word that is not held is 0. -/
structure Bitmap where
  words : Std.TreeMap Nat UInt64

namespace Bitmap

/-- The bitmap without a used block. -/
def empty : Bitmap := ⟨∅⟩

/-- The word that holds a block. -/
def word (b : Bitmap) (block : Nat) : UInt64 := b.words.getD (block / 64) 0

/-- A block's bit in its word. -/
def bit (block : Nat) : UInt64 := 1 <<< (block % 64).toUInt64

def isUsed (b : Bitmap) (block : Nat) : Bool := b.word block &&& bit block != 0

/-- Whether all 64 blocks of the word that holds `block` are used. -/
def isFullWord (b : Bitmap) (block : Nat) : Bool := b.word block == 0xFFFFFFFFFFFFFFFF

/-- The bitmap with another word in a place. -/
def setWord (b : Bitmap) (place : Nat) (word : UInt64) : Bitmap := ⟨b.words.insert place word⟩

/-- The word with `count` bits set from bit `offset` on. -/
def runMask (offset count : Nat) : UInt64 := (((1 <<< count) - 1) <<< offset).toUInt64

/-- Changes `count` bits from block `start` on, word by word: `change` is given a word and the mask of
the bits to change in it. -/
def changeRun (change : UInt64 → UInt64 → UInt64) (b : Bitmap) (start count : Nat) : Bitmap :=
  if count = 0 then b
  else
    let here := min count (64 - start % 64)
    changeRun change (b.setWord (start / 64) (change (b.word start) (runMask (start % 64) here)))
      (start + here) (count - here)
termination_by count

/-- Marks `count` blocks from `start` on as used. -/
def markRun (b : Bitmap) (start count : Nat) : Bitmap := b.changeRun (fun word mask => word ||| mask) start count

/-- Marks `count` blocks from `start` on as free. -/
def unmarkRun (b : Bitmap) (start count : Nat) : Bitmap := b.changeRun (fun word mask => word &&& ~~~mask) start count

theorem testBit_runMask {offset count : Nat} (inWord : offset + count ≤ 64) (i : Nat) :
    (runMask offset count).toNat.testBit i = decide (offset ≤ i ∧ i < offset + count) := by
  have mod : (runMask offset count).toNat = (((1 <<< count) - 1) <<< offset) % UInt64.size := rfl
  rw [mod, show UInt64.size = 2 ^ 64 from rfl, Nat.testBit_mod_two_pow, Nat.testBit_shiftLeft, Nat.one_shiftLeft,
    Nat.testBit_two_pow_sub_one, ← Bool.decide_and, ← Bool.decide_and]
  apply decide_eq_decide.2
  omega

theorem toNat_bit (block : Nat) : (bit block).toNat = 1 <<< (block % 64) := by
  have small := Nat.mod_lt block (show 0 < 64 by decide)
  have amount : (block % 64).toUInt64.toNat = block % 64 := by
    rw [Nat.toUInt64, UInt64.toNat_ofNat', Nat.mod_eq_of_lt (by omega)]
  rw [bit, UInt64.toNat_shiftLeft, amount, Nat.mod_mod_of_dvd _ (by decide), UInt64.toNat_one, Nat.one_shiftLeft]
  exact Nat.mod_eq_of_lt (Nat.pow_lt_pow_right (by decide) small)

/-- A block is used if its bit is set in its word. -/
theorem isUsed_eq_testBit (b : Bitmap) (block : Nat) : b.isUsed block = (b.word block).toNat.testBit (block % 64) := by
  have meets : b.isUsed block = true ↔ (b.word block).toNat &&& 1 <<< (block % 64) ≠ 0 := by
    rw [isUsed, bne_iff_ne, ne_eq, ← UInt64.toNat_inj, UInt64.toNat_and, toNat_bit]
    rfl
  rw [Bool.eq_iff_iff, meets, Nat.one_shiftLeft]
  constructor
  · intro some
    obtain ⟨i, set⟩ := Nat.exists_testBit_of_ne_zero some
    rw [Nat.testBit_and, Nat.testBit_two_pow, Bool.and_eq_true, decide_eq_true_eq] at set
    rw [set.2]
    exact set.1
  · intro set none
    have : ((b.word block).toNat &&& 2 ^ (block % 64)).testBit (block % 64) = true := by
      rw [Nat.testBit_and, set, Nat.testBit_two_pow_self]; rfl
    rw [none, Nat.zero_testBit] at this
    exact absurd this (by decide)

theorem isUsed_setWord (b : Bitmap) (place : Nat) (word : UInt64) (block : Nat) :
    (b.setWord place word).isUsed block =
      if block / 64 = place then word.toNat.testBit (block % 64) else b.isUsed block := by
  rw [isUsed_eq_testBit, isUsed_eq_testBit]
  unfold Bitmap.word setWord
  rw [Std.TreeMap.getD_insert]
  by_cases same : block / 64 = place
  · simp [same]
  · simp [same, Ne.symm same]

/-- Marking a run adds its blocks to those in use. -/
theorem isUsed_markRun (b : Bitmap) (start count block : Nat) :
    (b.markRun start count).isUsed block = (b.isUsed block || decide (start ≤ block ∧ block < start + count)) := by
  unfold markRun
  fun_induction changeRun (fun word mask => word ||| mask) b start count with
  | case1 b start => rw [decide_eq_false (by omega), Bool.or_false]
  | case2 b start count _ here ih =>
    have place : here = min count (64 - start % 64) := rfl
    rw [ih, isUsed_setWord]
    by_cases same : block / 64 = start / 64
    · have word : b.word block = b.word start := by rw [Bitmap.word, Bitmap.word, same]
      rw [if_pos same, UInt64.toNat_or, Nat.testBit_or, testBit_runMask (by omega), isUsed_eq_testBit, word,
        Bool.or_assoc, ← Bool.decide_or]
      congr 1
      apply decide_eq_decide.2
      omega
    · rw [if_neg same]
      congr 1
      apply decide_eq_decide.2
      omega

/-- Unmarking a run takes its blocks from those in use. -/
theorem isUsed_unmarkRun (b : Bitmap) (start count block : Nat) :
    (b.unmarkRun start count).isUsed block = (b.isUsed block && !decide (start ≤ block ∧ block < start + count)) := by
  unfold unmarkRun
  fun_induction changeRun (fun word mask => word &&& ~~~mask) b start count with
  | case1 b start => rw [decide_eq_false (by omega)]; simp
  | case2 b start count _ here ih =>
    have place : here = min count (64 - start % 64) := rfl
    rw [ih, isUsed_setWord]
    by_cases same : block / 64 = start / 64
    · have word : b.word block = b.word start := by rw [Bitmap.word, Bitmap.word, same]
      have flip : (~~~runMask (start % 64) here).toNat.testBit (block % 64) =
          !(runMask (start % 64) here).toNat.testBit (block % 64) := by
        have size : 64 > block % 64 := by omega
        have bound := (runMask (start % 64) here).toNat_lt
        have sum : (~~~runMask (start % 64) here).toNat = 2 ^ 64 - ((runMask (start % 64) here).toNat + 1) := by
          rw [UInt64.toNat_not, UInt64.size]; omega
        rw [sum, Nat.testBit_two_pow_sub_succ bound]
        simp [size]
      rw [if_pos same, UInt64.toNat_and, Nat.testBit_and, flip, testBit_runMask (by omega), isUsed_eq_testBit, word,
        Bool.and_assoc, ← Bool.not_or, ← Bool.decide_or]
      congr 2
      apply decide_eq_decide.2
      omega
    · rw [if_neg same]
      congr 2
      apply decide_eq_decide.2
      omega

/-- The first run of `needed` free blocks below `total`, searching from `block` on. The blocks from
`start` to `block` are the run read so far, `len` of them. A word without a free block is passed
over whole. -/
def findRun (b : Bitmap) (total needed : Nat) (block start len : Nat) : Option Nat :=
  if block < total then
    if block % 64 == 0 && b.isFullWord block then b.findRun total needed (block + 64) (block + 64) 0
    else if b.isUsed block then b.findRun total needed (block + 1) (block + 1) 0
    else if len + 1 = needed then some start
    else b.findRun total needed (block + 1) start (len + 1)
  else none
termination_by total - block

end Bitmap
end BlockCache

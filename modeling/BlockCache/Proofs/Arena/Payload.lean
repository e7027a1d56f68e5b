import BlockCache.Proofs.Arena.Runs
import Mathlib.Data.List.Basic

/-!
# Values in live runs

A value written to a live run is read back from it, and is untouched by writes to other live runs:
the runs lie apart, so their bytes do.
-/

namespace BlockCache

namespace Tape

theorem read_write (t : Tape) (address : Nat) (data : Bytes) :
    (t.write address data).read address data.length = data := by
  rw [read_eq]
  apply List.ext_getElem?
  intro i
  by_cases inside : i < data.length
  · rw [List.getElem?_map, List.getElem?_range' inside, Option.map_some, byteAt_write, if_pos (by omega)]
    have place : address + 1 * i - address = i := by omega
    rw [place, List.getElem?_eq_getElem inside]
    rfl
  · rw [List.getElem?_eq_none (by simpa using inside), List.getElem?_eq_none (by simpa using inside)]

theorem read_write_of_apart (t : Tape) {address other length : Nat} {data : Bytes}
    (apart : address + data.length ≤ other ∨ other + length ≤ address) :
    (t.write address data).read other length = t.read other length := by
  rw [read_eq, read_eq]
  refine List.map_congr_left fun x mem => ?_
  obtain ⟨i, inside, rfl⟩ := List.mem_range'.1 mem
  rw [byteAt_write, if_neg (by omega)]

end Tape

namespace Arena.Sound

variable {a : Arena} {r q : Region}

theorem write_eq (sound : a.Sound) (owns : a.Owns r) {data : Bytes} (length : data.length = r.length.toNat) :
    a.write r data = .ok { a with tape := a.tape.write (a.address r) data } := by
  rw [write, sound.fault?_eq_none_iff.2 owns]
  exact if_pos length

/-- What was written to a region is read from it. -/
theorem get_write (sound : a.Sound) (owns : a.Owns r) {data : Bytes} (length : data.length = r.length.toNat) :
    { a with tape := a.tape.write (a.address r) data }.get r = .ok data := by
  rw [(sound.withTape (a.tape.write (a.address r) data)).get_eq ⟨owns.live, owns.fits⟩, ← length]
  exact congrArg Except.ok (a.tape.read_write (a.address r) data)

/-- A write to one region leaves the value in another as it is. -/
theorem get_write_other (sound : a.Sound) (ownsWritten : a.Owns r) (owns : a.Owns q) (ne : q.start ≠ r.start)
    {data : Bytes} (length : data.length = r.length.toNat) :
    { a with tape := a.tape.write (a.address r) data }.get q = a.get q := by
  rw [(sound.withTape (a.tape.write (a.address r) data)).get_eq ⟨owns.live, owns.fits⟩, sound.get_eq owns]
  refine congrArg Except.ok (a.tape.read_write_of_apart ?_)
  have fitsWritten := ownsWritten.fits
  have fits := owns.fits
  unfold address
  have differ : r.start.toNat ≠ q.start.toNat := fun same => ne (UInt32.toNat_inj.1 same.symm)
  rcases sound.apart_of_ne ownsWritten.live owns.live differ with before | after
  · left
    have := Nat.mul_le_mul_right a.blockSize before
    rw [Nat.add_mul] at this
    dsimp only
    omega
  · right
    have := Nat.mul_le_mul_right a.blockSize after
    rw [Nat.add_mul] at this
    exact Nat.le_trans (Nat.add_le_add_left fits _) this

end Arena.Sound
end BlockCache

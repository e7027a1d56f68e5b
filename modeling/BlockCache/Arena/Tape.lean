import BlockCache.Text.Bytes
import Std.Data.TreeMap.Lemmas

/-!
# Zeroed memory

Memory that reads as zero wherever nothing was written. It is cut into pages, and only the pages that
were written are held, each up to its last byte written: a large arena costs nothing before it is
used, and a write copies no more than the pages it touches. The view is `byteAt`: a write changes it
where its data goes and nowhere else, and a read gives the bytes at the addresses read.
-/

namespace BlockCache

/-- Memory by page; bytes that no page holds are zero. -/
structure Tape where
  pages : Std.TreeMap Nat ByteArray

namespace Tape

/-- Bytes in a page. -/
def pageSize : Nat := 1024

/-- Memory before any write. -/
def blank : Tape := ⟨∅⟩

/-- The page that holds an address, as far as it was written. -/
def pageAt (t : Tape) (address : Nat) : ByteArray := t.pages.getD (address / pageSize) .empty

/-- The byte at an address. -/
def byteAt (t : Tape) (address : Nat) : UInt8 := (t.pageAt address).data[address % pageSize]?.getD 0

/-- The bytes from `address` on that lie in its page, at most `length` of them. -/
def readPage (t : Tape) (address length : Nat) : Bytes :=
  let offset := address % pageSize
  let count := min length (pageSize - offset)
  let held := ((t.pageAt address).extract offset (offset + count)).data.toList
  held ++ List.replicate (count - held.length) 0

theorem length_readPage (t : Tape) (address length : Nat) :
    (t.readPage address length).length = min length (pageSize - address % pageSize) := by
  simp only [readPage, ByteArray.data_extract, Array.toList_extract, List.extract_eq_take_drop, List.length_append,
    List.length_take, List.length_drop, List.length_replicate]
  omega

theorem pageSize_pos : 0 < pageSize := by decide

/-- The `length` bytes from `address` on. -/
def read (t : Tape) (address length : Nat) : Bytes :=
  if length = 0 then []
  else
    let first := t.readPage address length
    first ++ t.read (address + first.length) (length - first.length)
termination_by length
decreasing_by
  have := Nat.mod_lt address pageSize_pos
  simp only [length_readPage]
  omega

/-- A page with `data` at an offset. -/
def patch (page : ByteArray) (offset : Nat) (data : Bytes) : ByteArray :=
  let padded := page ++ (List.replicate (offset - page.size) 0).toByteArray
  data.toByteArray.copySlice 0 padded offset data.length

/-- The memory with `data` at `address`. -/
def write (t : Tape) (address : Nat) (data : Bytes) : Tape :=
  if data.isEmpty then t
  else
    let offset := address % pageSize
    let count := pageSize - offset
    let page := patch (t.pageAt address) offset (data.take count)
    write ⟨t.pages.insert (address / pageSize) page⟩ (address + count) (data.drop count)
termination_by data.length
decreasing_by
  have := Nat.mod_lt address pageSize_pos
  have : data.length ≠ 0 := by simpa using ‹¬data.isEmpty = true›
  simp only [List.length_drop]
  omega

theorem getElem?_patch (page : ByteArray) (offset : Nat) (data : Bytes) (i : Nat) :
    (patch page offset data).data[i]?.getD 0 =
      if offset ≤ i ∧ i < offset + data.length then data[i - offset]?.getD 0 else page.data[i]?.getD 0 := by
  have size : page.data.size = page.size := rfl
  simp only [patch, ByteArray.copySlice, ByteArray.data_append, List.data_toByteArray, Nat.zero_add,
    Array.getElem?_append, Array.getElem?_extract, Array.size_append, Array.size_extract, List.size_toArray,
    List.length_replicate, List.getElem?_toArray, List.getElem?_replicate, size]
  by_cases before : i < offset
  · rw [if_pos (by omega), if_pos (by omega), if_neg (show ¬(offset ≤ i ∧ i < offset + data.length) by omega)]
    by_cases held : i < page.size
    · rw [if_pos (by omega), if_pos held]
    · have : page.data[i]? = none := Array.getElem?_eq_none (by omega)
      rw [if_pos (by omega), if_neg held, this]
      split <;> rfl
  · by_cases inside : i < offset + data.length
    · rw [if_pos (by omega), if_neg (by omega), if_pos (by omega), if_pos ⟨by omega, inside⟩]
      congr 2; omega
    · have place : offset + min data.length (data.length - 0) +
          (i - (min offset (page.size + (offset - page.size)) - 0 + (min data.length data.length - 0))) = i := by omega
      rw [if_neg (by omega), if_neg (show ¬(offset ≤ i ∧ i < offset + data.length) by omega), place]
      by_cases held : i < page.size
      · rw [if_pos (by omega), if_pos held]
      · have : page.data[i]? = none := Array.getElem?_eq_none (by omega)
        rw [if_neg (by omega), this]

/-- A write changes the bytes that it covers and no others. -/
theorem byteAt_write (t : Tape) (address : Nat) (data : Bytes) (x : Nat) :
    (t.write address data).byteAt x =
      if address ≤ x ∧ x < address + data.length then data[x - address]?.getD 0 else t.byteAt x := by
  fun_induction write t address data with
  | case1 t address data empty =>
    have : data = [] := by simpa using empty
    rw [if_neg (by simp only [this, List.length_nil]; omega)]
  | case2 t address data _ offset count page ih =>
    have size : pageSize = 1024 := rfl
    have first : offset = address % 1024 := rfl
    have room : count = 1024 - address % 1024 := rfl
    rw [ih, List.length_drop, List.getElem?_drop]
    by_cases same : x / pageSize = address / pageSize
    · have written :
          (⟨t.pages.insert (address / pageSize) page⟩ : Tape).byteAt x = page.data[x % pageSize]?.getD 0 := by
        simp [byteAt, pageAt, same]
      have before : t.byteAt x = (t.pageAt address).data[x % pageSize]?.getD 0 := by simp [byteAt, pageAt, same]
      rw [size] at same
      rw [if_neg (by omega), written, before, getElem?_patch, List.length_take, size]
      by_cases covered : address ≤ x ∧ x < address + data.length
      · rw [if_pos (by omega), if_pos covered, List.getElem?_take_of_lt (by omega)]
        congr 2; omega
      · rw [if_neg (by omega), if_neg covered]
    · have kept : (⟨t.pages.insert (address / pageSize) page⟩ : Tape).byteAt x = t.byteAt x := by
        simp [byteAt, pageAt, Std.TreeMap.getD_insert, Ne.symm same]
      rw [size] at same
      rw [kept]
      by_cases covered : address ≤ x ∧ x < address + data.length
      · rw [if_pos (by omega), if_pos covered]
        congr 2; omega
      · rw [if_neg (by omega), if_neg covered]

theorem readPage_eq (t : Tape) (address length : Nat) :
    t.readPage address length =
      (List.range' address (min length (pageSize - address % pageSize))).map t.byteAt := by
  have size : pageSize = 1024 := rfl
  have inPage := Nat.mod_lt address pageSize_pos
  apply List.ext_getElem?
  intro i
  by_cases inside : i < min length (pageSize - address % pageSize)
  · have here : (address + i) / pageSize = address / pageSize := by rw [size] at *; omega
    have there : (address + i) % pageSize = address % pageSize + i := by rw [size] at *; omega
    have bytes : (t.pageAt address).data.toList.length = (t.pageAt address).data.size := Array.length_toList
    rw [List.getElem?_map, List.getElem?_range' inside]
    simp only [readPage, ByteArray.data_extract, Array.toList_extract, List.extract_eq_take_drop, List.getElem?_append,
      List.length_take, List.length_drop, List.getElem?_replicate, Option.map_some, Nat.one_mul, byteAt, there, bytes]
    have page : t.pageAt (address + i) = t.pageAt address := by simp only [pageAt, here]
    rw [page]
    by_cases held : address % pageSize + i < (t.pageAt address).data.size
    · rw [if_pos (by omega), List.getElem?_take_of_lt (by omega), List.getElem?_drop, Array.getElem?_toList]
      rw [Array.getElem?_eq_getElem held]
      rfl
    · have none : (t.pageAt address).data[address % pageSize + i]? = none := Array.getElem?_eq_none (by omega)
      rw [if_neg (by omega), if_pos (by omega), none]
      rfl
  · rw [List.getElem?_eq_none (by rw [length_readPage]; omega), List.getElem?_eq_none (by simp; omega)]

/-- Reading gives the bytes at the addresses read. -/
theorem read_eq (t : Tape) (address length : Nat) :
    t.read address length = (List.range' address length).map t.byteAt := by
  fun_induction read t address length with
  | case1 => rfl
  | case2 address length _ first ih =>
    have count : first.length = min length (pageSize - address % pageSize) := length_readPage ..
    have start : first = (List.range' address first.length).map t.byteAt := by
      rw [count]; exact readPage_eq ..
    have whole : first.length + (length - first.length) = length := by omega
    calc first ++ t.read (address + first.length) (length - first.length)
      _ = (List.range' address first.length).map t.byteAt ++
            (List.range' (address + first.length) (length - first.length)).map t.byteAt := by rw [ih, ← start]
      _ = (List.range' address length).map t.byteAt := by rw [← List.map_append, List.range'_append_1, whole]

end Tape
end BlockCache

import BlockCache.Proofs.Wire.Replies

/-!
# What a reply to a read says

The data of a value may hold anything, line ends and whole replies among them, so a reader has to count. The line
before the data has no space but between its parts, and says how long the data is. So no reply to a read begins
with another, and a reply determines the items in it.
-/

namespace BlockCache

open Bytes (crlf)

section Prefixes

variable {a b x y : Bytes}

/-- Up to the first delimiter there is one way to cut. -/
theorem Bytes.prefix_of_delimited {d : UInt8} (left : d ∉ a) (right : d ∉ b) (front : a ++ d :: x <+: b ++ d :: y) :
    a = b ∧ x <+: y := by
  induction a generalizing b with
  | nil =>
    cases b with
    | nil => exact ⟨rfl, (List.cons_prefix_cons.1 front).2⟩
    | cons c b => exact absurd ((List.cons_prefix_cons.1 front).1 ▸ List.mem_cons_self) right
  | cons c a ih =>
    cases b with
    | nil => exact absurd ((List.cons_prefix_cons.1 front).1 ▸ List.mem_cons_self) left
    | cons c' b =>
      obtain ⟨rfl, rest⟩ := List.cons_prefix_cons.1 front
      obtain ⟨rfl, later⟩ := ih (fun mem => left (List.mem_cons_of_mem _ mem))
        (fun mem => right (List.mem_cons_of_mem _ mem)) rest
      exact ⟨rfl, later⟩

/-- After a known number of bytes there is one way to cut. -/
theorem Bytes.prefix_of_length (length : a.length = b.length) (front : a ++ x <+: b ++ y) : a = b ∧ x <+: y := by
  obtain ⟨more, whole⟩ := front
  rw [List.append_assoc] at whole
  obtain ⟨same, rest⟩ := List.append_inj whole length
  exact ⟨same, more, rest⟩

end Prefixes

namespace Reply

theorem not_mem_key {key : Key} (sendable : key.Sendable) : 32 ∉ key.bytes := fun mem =>
  absurd (sendable.printable 32 mem).1 (by decide)

/-- The line before the data, up to the byte that ends the length. -/
theorem valueHead_prefix {key key' : Key} (sendable : key.Sendable) (sendable' : key'.Sendable) {flags flags' : UInt32}
    {data data' x y : Bytes} {d : UInt8} (control : d < 48)
    (front : valueHead key.bytes flags data ++ d :: x <+: valueHead key'.bytes flags' data' ++ d :: y) :
    key = key' ∧ flags = flags' ∧ data.length = data'.length ∧ x <+: y := by
  simp only [valueHead, List.append_assoc, List.prefix_append_right_inj] at front
  obtain ⟨keys, front⟩ := Bytes.prefix_of_delimited (not_mem_key sendable) (not_mem_key sendable') front
  obtain ⟨marks, front⟩ := Bytes.prefix_of_delimited (Decimal.not_mem_digits (by decide) _)
    (Decimal.not_mem_digits (by decide) _) front
  obtain ⟨lengths, front⟩ := Bytes.prefix_of_delimited (Decimal.not_mem_digits control _)
    (Decimal.not_mem_digits control _) front
  exact ⟨Key.mk.injEq .. ▸ keys, UInt32.toNat_inj.1 (Decimal.digits_injective marks),
    Decimal.digits_injective lengths, front⟩

/-- The data and its line end, after the line that says how long it is. -/
theorem data_prefix {data data' x y : Bytes} (length : data.length = data'.length)
    (front : 10 :: (line data ++ x) <+: 10 :: (line data' ++ y)) : data = data' ∧ x <+: y := by
  have front := (List.cons_prefix_cons.1 front).2
  rw [line, line, List.append_assoc, List.append_assoc] at front
  obtain ⟨same, front⟩ := Bytes.prefix_of_length length front
  exact ⟨same, (List.prefix_append_right_inj _).1 front⟩

/-- A value that another reply begins with is its first value. -/
theorem item_prefix {i j : Item} (left : i.key.Sendable) (right : j.key.Sendable) {withCas : Bool} {x y : Bytes}
    (front : (i.reply withCas).render ++ x <+: (j.reply withCas).render ++ y) :
    i.reply withCas = j.reply withCas ∧ x <+: y := by
  cases withCas with
  | false =>
    -- Key and numbers end at a byte that none of them holds, the data where the length says.
    have shape (i : Item) (x : Bytes) : (i.reply false).render ++ x =
        valueHead i.key.bytes i.flags i.data ++ 13 :: 10 :: (line i.data ++ x) := by
      simp [Item.reply, render, line, crlf]
    rw [shape, shape] at front
    obtain ⟨keys, flags, length, front⟩ := valueHead_prefix left right (by decide) front
    obtain ⟨data, front⟩ := data_prefix length front
    exact ⟨by simp [Item.reply, keys, flags, data], front⟩
  | true =>
    have shape (i : Item) (x : Bytes) : (i.reply true).render ++ x =
        valueHead i.key.bytes i.flags i.data ++ 32 :: (Decimal.digits i.cas.toNat ++ 13 :: 10 :: (line i.data ++ x)) := by
      simp [Item.reply, render, line, crlf]
    rw [shape, shape] at front
    obtain ⟨keys, flags, length, front⟩ := valueHead_prefix left right (by decide) front
    obtain ⟨tokens, front⟩ := Bytes.prefix_of_delimited (Decimal.not_mem_digits (by decide) _)
      (Decimal.not_mem_digits (by decide) _) front
    obtain ⟨data, front⟩ := data_prefix length front
    have cas : i.cas = j.cas := UInt64.toNat_inj.1 (Decimal.digits_injective tokens)
    exact ⟨by simp [Item.reply, keys, flags, data, cas], front⟩

/-- A value is not the end of the values. -/
theorem exists_render_item (i : Item) (withCas : Bool) : ∃ rest, (i.reply withCas).render = 86 :: rest := by
  cases withCas <;> exact ⟨_, rfl⟩

/-- No reply to a read begins with another one, and a reply says what was read. -/
theorem items_prefix {found other : List Item} (left : ∀ i ∈ found, i.key.Sendable) (right : ∀ i ∈ other, i.key.Sendable)
    {withCas : Bool} (front : renderAll (found.map (Item.reply withCas) ++ [.finish]) <+:
      renderAll (other.map (Item.reply withCas) ++ [.finish])) :
    found.map (Item.reply withCas) = other.map (Item.reply withCas) := by
  have first (i : Item) (rest : List Item) : renderAll ((i :: rest).map (Item.reply withCas) ++ [.finish]) =
      (i.reply withCas).render ++ renderAll (rest.map (Item.reply withCas) ++ [.finish]) := rfl
  have last : renderAll (List.map (Item.reply withCas) [] ++ [.finish]) = 69 :: [78, 68, 13, 10] := rfl
  induction found generalizing other with
  | nil =>
    cases other with
    | nil => rfl
    | cons j other =>
      obtain ⟨rest, value⟩ := exists_render_item j withCas
      rw [last, first, value] at front
      exact absurd (List.cons_prefix_cons.1 front).1 (by decide)
  | cons i found ih =>
    cases other with
    | nil =>
      obtain ⟨rest, value⟩ := exists_render_item i withCas
      rw [last, first, value] at front
      exact absurd (List.cons_prefix_cons.1 front).1 (by decide)
    | cons j other =>
      rw [first, first] at front
      rw [List.forall_mem_cons] at left right
      obtain ⟨same, later⟩ := item_prefix left.1 right.1 front
      rw [List.map_cons, List.map_cons, same, ih left.2 right.2 later]

end Reply
end BlockCache

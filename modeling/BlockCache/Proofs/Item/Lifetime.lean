import BlockCache.Item.Edit

/-!
# How long items live

The expiry value of an item and its time of storing say when it can be read. That time is over once and for all: an
item that is not held back is readable exactly until then, and is to be removed from then on.
-/

namespace BlockCache

/-- A number that 64 bits cannot say is clamped to the least or the greatest one that they can. -/
theorem toInt_ofIntClamp (n : Int) :
    (Int64.ofIntClamp n).toInt = max Int64.minValue.toInt (min Int64.maxValue.toInt n) := by
  have least : Int64.minValue.toInt = -9223372036854775808 := by decide
  have greatest : Int64.maxValue.toInt = 9223372036854775807 := by decide
  rw [Int64.ofIntClamp]
  split
  · split
    · rw [Int64.toInt_ofIntLE]
      omega
    · omega
  · omega

/-- Whether a time comes before that at which an expiry value falls due: 0 never does, a value of less than 30 days does
so many seconds after the time of storing, and any other one at the time that it names. -/
def InLifetime (expire storedAt now : Int64) : Prop :=
  expire = 0 ∨
  expire.toInt.natAbs < 2592000 ∧
    now.toInt < max Int64.minValue.toInt (min Int64.maxValue.toInt (storedAt.toInt + expire.toInt)) ∨
  2592000 ≤ expire.toInt.natAbs ∧ now < expire

section InLifetime

variable {expire storedAt now : Int64}

theorem relative_iff : -relativeLimit < expire ∧ expire < relativeLimit ↔ expire.toInt.natAbs < 2592000 := by
  have limit : relativeLimit.toInt = 2592000 := by decide
  have opposite : (-relativeLimit).toInt = -2592000 := by decide
  rw [Int64.lt_iff_toInt_lt, Int64.lt_iff_toInt_lt, limit, opposite]
  omega

theorem inLifetime_iff : InLifetime expire storedAt now ↔ (resolveExpiry expire storedAt).any (· ≤ now) = false := by
  rw [resolveExpiry, InLifetime]
  simp only [relative_iff]
  split
  · rename_i never
    exact iff_of_true (.inl never) rfl
  · rename_i some_time
    split
    · rename_i short
      simp [some_time, short, Nat.not_le.2 short, Int64.lt_iff_toInt_lt, toInt_ofIntClamp]
    · rename_i long
      simp [some_time, long, Nat.not_lt.1 long]

/-- The past of a lifetime. -/
theorem InLifetime.of_le {earlier : Int64} (alive : InLifetime expire storedAt now) (le : earlier ≤ now) :
    InLifetime expire storedAt earlier := by
  rw [Int64.le_iff_toInt_le] at le
  rcases alive with never | ⟨short, before⟩ | ⟨long, before⟩
  · exact .inl never
  · exact .inr (.inl ⟨short, Int.lt_of_le_of_lt le before⟩)
  · rw [Int64.lt_iff_toInt_lt] at before
    exact .inr (.inr ⟨long, Int64.lt_iff_toInt_lt.2 (Int.lt_of_le_of_lt le before)⟩)

end InLifetime

namespace Item

/-- `i` is `entry`, not held back, with this data and some CAS value. -/
structure Carries (entry : Item) (data : Bytes) (i : Item) : Prop where
  key : i.key = entry.key
  flags : i.flags = entry.flags
  expire : i.expire = entry.expire
  storedAt : i.storedAt = entry.storedAt
  data : i.data = data
  unheld : i.held = false

namespace Carries

variable {entry i : Item} {data : Bytes} {now : Int64}

theorem isPurgeableAt_iff (carries : entry.Carries data i) :
    i.isPurgeableAt now = true ↔ ¬InLifetime entry.expire entry.storedAt now := by
  rw [inLifetime_iff, isPurgeableAt, isExpiredAt, expiresAt, carries.expire, carries.storedAt, carries.unheld]
  simp

theorem isLiveAt_iff (carries : entry.Carries data i) :
    i.isLiveAt now = true ↔ InLifetime entry.expire entry.storedAt now := by
  rw [inLifetime_iff, isLiveAt, isPurgeableAt, isHeldAt, isExpiredAt, expiresAt, carries.expire, carries.storedAt,
    carries.unheld]
  simp

/-- An edit gives new data and nothing else. -/
theorem withData (carries : entry.Carries data i) (other : Bytes) (cas : UInt64) :
    entry.Carries other { i.withData other with cas } :=
  ⟨carries.key, carries.flags, carries.expire, carries.storedAt, rfl, rfl⟩

end Carries
end Item
end BlockCache

import BlockCache.Key

/-!
# Items

A cached value with its metadata, and when it may be read. An item lives until it expires. A delayed
delete holds it back: it can no longer be read, and once the hold is over it is gone. An item that
is neither readable nor gone is held back.
-/

namespace BlockCache

/-- Expiry values below this magnitude count seconds from the time of storing (30 days). -/
def relativeLimit : Int64 := 2592000

/-- The time at which an expiry value falls due: never for 0, so many seconds after `storedAt`
below 30 days, and otherwise at the value itself. -/
def resolveExpiry (expire storedAt : Int64) : Option Int64 :=
  if expire = 0 then none
  else if -relativeLimit < expire ∧ expire < relativeLimit then
    some (Int64.ofIntClamp (storedAt.toInt + expire.toInt))
  else some expire

/-- A cached value with its metadata. -/
structure Item where
  key : Key
  /-- Opaque to the cache. -/
  flags : UInt32 := 0
  /-- Expiry as the client sent it. -/
  expire : Int64 := 0
  /-- When the value was stored; the base of a relative expiry. -/
  storedAt : Int64 := 0
  data : Bytes := []
  /-- Which write produced the stored value; drawn by the store. -/
  cas : UInt64 := 0
  /-- Deleted with a delay: unreadable until `heldUntil`, then gone. -/
  held : Bool := false
  heldUntil : Int64 := 0
deriving DecidableEq

namespace Item

def expiresAt (i : Item) : Option Int64 := resolveExpiry i.expire i.storedAt

def isExpiredAt (i : Item) (now : Int64) : Bool := i.expiresAt.any (· ≤ now)

/-- The item as a delayed delete leaves it. -/
def hold (i : Item) (deadline : Int64) : Item := { i with held := true, heldUntil := deadline }

/-- Inside the window of a delayed delete. -/
def isHeldAt (i : Item) (now : Int64) : Bool := i.held && now < i.heldUntil

/-- Expired, or past the window of a delayed delete. -/
def isPurgeableAt (i : Item) (now : Int64) : Bool :=
  i.isExpiredAt now || (i.held && i.heldUntil ≤ now)

/-- Readable by clients. -/
def isLiveAt (i : Item) (now : Int64) : Bool := !i.isPurgeableAt now && !i.isHeldAt now

end Item
end BlockCache

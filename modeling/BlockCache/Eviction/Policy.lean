/-!
# Eviction policies

Which entry goes first when room is needed: the one written longest ago, or the one neither written
nor read for longest.
-/

namespace BlockCache

/-- How the next victim is chosen. -/
inductive Policy where
  /-- The entry written longest ago. -/
  | fifo
  /-- The entry read or written longest ago. -/
  | lru
deriving DecidableEq, Repr

namespace Policy

/-- Whether reading an entry makes it the youngest. -/
def refreshesOnRead : Policy → Bool
  | fifo => false
  | lru => true

def name : Policy → String
  | fifo => "fifo"
  | lru => "lru"

def ofName? (s : String) : Option Policy :=
  if s = "fifo" then some fifo else if s = "lru" then some lru else none

end Policy
end BlockCache

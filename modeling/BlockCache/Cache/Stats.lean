import BlockCache.Cache.Basic
import BlockCache.Text.Blank
import Std.Data.TreeMap.Basic

/-!
# Statistics

The figures that a cache shows on request, each a name with one or more texts. Names are in order,
and so are the texts of one name, each of them once.
-/

namespace BlockCache

/-- Texts by name. -/
abbrev Stats := Std.TreeMap String (List String)

/-- The program's version. -/
def programVersion : String := "0.1.0"

namespace Stats

/-- The texts in order, each once. -/
def distinct (texts : List String) : List String := (texts.mergeSort fun a b => !(b < a)).eraseReps

/-- The name and text pairs in the order in which they are shown. -/
def lines (s : Stats) : List (String × String) :=
  s.toList.flatMap fun entry => entry.2.map fun text => (entry.1, text)

/-- Every key stored, as text. -/
def ofKeys (keys : List Key) : Stats := Std.TreeMap.empty.insert "key" (distinct (keys.map (·.text)))

def ofFigures (figures : List (String × String)) : Stats :=
  figures.foldl (fun stats figure => stats.insert figure.1 [figure.2]) Std.TreeMap.empty

end Stats

namespace Cache

/-- The figures of the cache, shown by the process `pid`. -/
def figures (c : Cache) (now : Int64) (pid : Nat) : Stats :=
  let gauges := c.snapshot
  .ofFigures [
    ("pid", toString pid),
    ("uptime", toString (now - c.started).toInt),
    ("time", toString now.toInt),
    ("version", programVersion),
    ("curr_items", toString gauges.items),
    ("limit_maxitems", toString c.store.capacity),
    ("total_items", toString c.counters.totalItems),
    ("limit_maxbytes", toString gauges.limit),
    ("current_bytes", toString gauges.bytes),
    ("cmd_get", toString c.counters.gets),
    ("cmd_set", toString c.counters.sets),
    ("get_hits", toString c.counters.hits),
    ("get_misses", toString c.counters.misses),
    ("evictions", toString gauges.evictions)]

/-- What the cache shows for `arg`: its keys, or its figures. -/
def stat (c : Cache) (now : Int64) (pid : Nat) (arg : String) : Stats :=
  if Text.trim arg.toList = "keys".toList then .ofKeys c.store.keys else c.figures now pid

end Cache
end BlockCache

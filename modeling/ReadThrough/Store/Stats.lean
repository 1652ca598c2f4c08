import ReadThrough.Value.Canonical

/-!
Counters of the store.

* `Counters`: what the store counts, in words.
* `Stats`: the counters with the number of entries.
* `Stats.hitRate`: the share of lookups that found a live entry.
* `Stats.text`: the statistics as JSON text.
-/

namespace ReadThrough

/-- What the store counts. Counters wrap around. -/
structure Counters where
  /-- Lookups that found a live entry. -/
  hits : UInt64
  /-- Lookups that found none. -/
  misses : UInt64
  /-- Expired entries that were removed. -/
  expirations : UInt64
  /-- Entries written. -/
  writes : UInt64
  /-- Writes left out because they had no lifetime. -/
  skippedWrites : UInt64
deriving DecidableEq

/-- The counters of a new store. -/
def Counters.zero : Counters := ⟨0, 0, 0, 0, 0⟩

/-- The counters with the number of entries, expired ones included. -/
structure Stats extends Counters where
  entries : Nat
deriving DecidableEq

namespace Stats

/-- The statistics of a new store. -/
def zero : Stats := ⟨Counters.zero, 0⟩

/-- The share of lookups that found a live entry; zero before the first lookup. The number of
lookups is a word as well, and wraps around like the counters. -/
def hitRate (s : Stats) : Binary64 :=
  let total := s.hits + s.misses
  if total = 0 then Binary64.ofPattern false 0
  else Binary64.divide (Binary64.ofInt s.hits.toNat) (Binary64.ofInt total.toNat)

/-- The statistics as JSON text, in a fixed order. -/
def text (s : Stats) : String :=
  let fields : List (String × Value) :=
    [("hits", .uint s.hits), ("misses", .uint s.misses), ("expirations", .uint s.expirations),
     ("writes", .uint s.writes), ("skipped_writes", .uint s.skippedWrites),
     ("total_entries", .uint (UInt64.ofNat s.entries))]
  String.ofList ((Value.map fields).print [])

end Stats

end ReadThrough

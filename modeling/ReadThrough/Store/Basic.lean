import ReadThrough.Event
import ReadThrough.Key.Basic
import ReadThrough.Store.Entry
import ReadThrough.Store.Stats
import ReadThrough.Table

/-!
The store: entries under keys, with counters. Expired entries stay until a reader meets them or a
sweep removes them.

* `Reply`: an answer, the events on the way to it, and the state left behind.
* `Store.lookup`: what a reader finds under a key, without changing anything.
* `Store.startGet`, `Store.finishGet`: the two steps of a read. The first looks the key up; only if
  it meets an expired entry does the second follow, which purges what is expired by then.
* `Store.get`, `Store.set`, `Store.delete`, `Store.sweep`, `Store.remaining?`: the operations.
-/

namespace ReadThrough

/-- An answer, the events on the way to it, and the state left behind. -/
structure Reply (σ α : Type) where
  answer : α
  events : List Event
  state : σ

/-- Entries under keys, with counters. -/
structure Store where
  entries : Table Entry
  counters : Counters

namespace Store

/-- The store without entries. -/
def empty : Store := ⟨Table.empty, Counters.zero⟩

instance : Inhabited Store := ⟨empty⟩

/-! ### Counting -/

/-- One more lookup that found a live entry. -/
def countHit (s : Store) : Store :=
  { s with counters := { s.counters with hits := s.counters.hits + 1 } }

/-- One more lookup that found none. -/
def countMiss (s : Store) : Store :=
  { s with counters := { s.counters with misses := s.counters.misses + 1 } }

/-- More expired entries removed. -/
def countExpirations (s : Store) (n : Nat) : Store :=
  { s with
    counters := { s.counters with expirations := s.counters.expirations + UInt64.ofNat n } }

/-- One more entry written. -/
def countWrite (s : Store) : Store :=
  { s with counters := { s.counters with writes := s.counters.writes + 1 } }

/-- One more write left out. -/
def countSkippedWrite (s : Store) : Store :=
  { s with counters := { s.counters with skippedWrites := s.counters.skippedWrites + 1 } }

/-! ### Looking -/

/-- What a reader finds under a key. -/
inductive Found where
  | live (value : Bytes)
  | expired
  | missing
deriving DecidableEq

/-- What a reader finds under a key at an instant. -/
def lookup (s : Store) (now : Nat) (key : String) : Found :=
  match s.entries.get? key with
  | some entry => if entry.isExpired now then .expired else .live entry.value
  | none => .missing

/-- The time left to a live entry; the longest duration for one that never expires. The key is not
checked, since no entry has an invalid one. -/
def remaining? (s : Store) (now : Nat) (key : String) : Option Nat :=
  match s.entries.get? key with
  | some entry =>
    if entry.isExpired now then none else some ((entry.remaining now).getD Duration.longest)
  | none => none

/-- The number of entries, expired ones included. -/
def size (s : Store) : Nat :=
  s.entries.size

/-- Whether there are no entries. -/
def isEmpty (s : Store) : Bool :=
  s.size == 0

/-- The counters with the number of entries. -/
def stats (s : Store) : Stats :=
  ⟨s.counters, s.size⟩

/-! ### Reading -/

/-- Removes the entry of a key if it is expired at this instant, whatever an earlier lookup met. -/
def purge (s : Store) (now : Nat) (key : String) : Reply Store Unit :=
  match s.lookup now key with
  | .expired =>
    ⟨(), [.purgedOnRead key], countExpirations { s with entries := s.entries.erase key } 1⟩
  | _ => ⟨(), [], s⟩

/-- How far a read has come after its lookup. -/
inductive GetStage where
  | answered (value : Option Bytes)
  | purging
deriving DecidableEq

/-- The first step of a read: it looks the key up and counts the lookup, unless it has met an
expired entry. An invalid key is under no entry. -/
def startGet (s : Store) (now : Nat) (key : String) : GetStage × Store :=
  if Key.isValid key then
    match s.lookup now key with
    | .live value => (.answered (some value), s.countHit)
    | .expired => (.purging, s)
    | .missing => (.answered none, s.countMiss)
  else (.answered none, s.countMiss)

/-- The second step of a read that has met an expired entry: the purge, and the miss. -/
def finishGet (s : Store) (now : Nat) (key : String) : Reply Store (Option Bytes) :=
  let purged := s.purge now key
  ⟨none, purged.events, purged.state.countMiss⟩

/-- Reads the live value under a key. -/
def get (s : Store) (now : Nat) (key : String) : Reply Store (Option Bytes) :=
  match s.startGet now key with
  | (.answered value, s) => ⟨value, [], s⟩
  | (.purging, s) => s.finishGet now key

/-! ### Writing -/

/-- Stores bytes under a key for a time, in place of what was there. Without a lifetime the write
is left out and what was there stays. -/
def set (s : Store) (now : Nat) (key : String) (value : Bytes) (lifetime : Nat) :
    Reply Store (Except CacheError Unit) :=
  match Key.check key with
  | .error error => ⟨.error error, [], s⟩
  | .ok _ =>
    if lifetime = 0 then ⟨.ok (), [.writeSkipped key], s.countSkippedWrite⟩
    else
      ⟨.ok (), [],
        countWrite { s with entries := s.entries.insert key (Entry.lasting now value lifetime) }⟩

/-- Removes the entry of a key, if there is one. -/
def delete (s : Store) (key : String) : Reply Store (Except CacheError Unit) :=
  match Key.check key with
  | .error error => ⟨.error error, [], s⟩
  | .ok _ => ⟨.ok (), [], { s with entries := s.entries.erase key }⟩

/-- Removes all expired entries and answers how many there were. -/
def sweep (s : Store) (now : Nat) : Reply Store Nat :=
  let kept := s.entries.keep fun _ entry => !entry.isExpired now
  let removed := s.entries.size - kept.size
  if removed = 0 then ⟨0, [], s⟩
  else ⟨removed, [.purged removed], countExpirations { s with entries := kept } removed⟩

end Store

end ReadThrough

import ReadThrough.Time

/-!
Entries of the store.

* `Bytes`: what tools return and the store keeps.
* `Entry`: bytes and the instant at which they expire; none if that instant cannot be represented.
* `Entry.isExpired`: an entry is expired from its instant on.
* `Entry.remaining`: the time left, none for an entry that never expires.
-/

namespace ReadThrough

/-- What tools return and the store keeps. -/
abbrev Bytes := List UInt8

/-- Stored bytes and the instant at which they expire. Without an instant they never do. -/
structure Entry where
  value : Bytes
  expires : Option Nat
deriving DecidableEq

namespace Entry

/-- The entry of bytes stored at an instant for a time. It never expires if the end of that time
cannot be represented. -/
def lasting (now : Nat) (value : Bytes) (lifetime : Nat) : Entry :=
  ⟨value, Instant.after? now lifetime⟩

/-- Whether an entry is expired at an instant; at the very instant of its expiry it is. -/
def isExpired (e : Entry) (now : Nat) : Bool :=
  match e.expires with
  | some limit => decide (limit ≤ now)
  | none => false

/-- The time left to an entry, zero once it is expired. -/
def remaining (e : Entry) (now : Nat) : Option Nat :=
  e.expires.map fun limit => limit - now

end Entry

end ReadThrough

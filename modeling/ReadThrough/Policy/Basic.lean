import ReadThrough.Time

/-!
Policies: how long results live, and whether results of unsafe tools are kept.

* `Policy`: a default lifetime, a greatest lifetime and a switch for unsafe tools.
* `Policy.standard`, `Policy.disabled`: five minutes of at most an hour, and nothing at all.
* `Policy.lifetime`: the lifetime a result is stored with. Zero means that it is not stored.
* `Policy.lifetime_le`: a bound that is set holds.
-/

namespace ReadThrough

/-- How long results live, in nanoseconds, and whether results of unsafe tools are kept. -/
structure Policy where
  /-- The lifetime of results where the caller asks for none; zero stores nothing. -/
  usual : Nat
  /-- The greatest lifetime; zero sets no bound. -/
  greatest : Nat
  /-- Whether results of unsafe tools are kept. -/
  unsafeAllowed : Bool
deriving DecidableEq

namespace Policy

/-- Five minutes. -/
def standardUsual : Nat := Duration.ofSeconds 300

/-- One hour. -/
def standardGreatest : Nat := Duration.ofSeconds 3600

/-- Five minutes, at most an hour, nothing of unsafe tools. -/
def standard : Policy := ⟨standardUsual, standardGreatest, false⟩

instance : Inhabited Policy := ⟨standard⟩

/-- Stores nothing. -/
def disabled : Policy := ⟨0, 0, false⟩

/-- The policy with its switch for unsafe tools set. -/
def withUnsafeAllowed (p : Policy) (unsafeAllowed : Bool) : Policy :=
  { p with unsafeAllowed := unsafeAllowed }

/-- The lifetime the caller asks for, or the usual one where the caller asks for none. -/
def wanted (p : Policy) (asked : Nat) : Nat :=
  if 0 < asked then asked else p.usual

/-- The lifetime to store a result with: the wanted one, but not above the greatest one where that
is set. Zero means that the result is not stored. -/
def lifetime (p : Policy) (asked : Nat) : Nat :=
  if 0 < p.greatest ∧ p.greatest < p.wanted asked then p.greatest else p.wanted asked

/-- Whether results are stored where the caller asks for no lifetime of their own. -/
def storesByDefault (p : Policy) : Bool :=
  decide (0 < p.usual)

/-- The policy as text. -/
def text (p : Policy) : String :=
  "Policy \x7b default_ttl: " ++ String.ofList (Duration.text p.usual) ++
    ", max_ttl: " ++ String.ofList (Duration.text p.greatest) ++
    ", allow_unsafe: " ++ (if p.unsafeAllowed then "true" else "false") ++ " \x7d"

/-- A bound that is set holds. -/
theorem lifetime_le (p : Policy) (asked : Nat) (bound : 0 < p.greatest) :
    p.lifetime asked ≤ p.greatest := by
  rw [lifetime]
  split <;> omega

end Policy

end ReadThrough

import ReadThrough.Context.Forest
import ReadThrough.Time

/-!
Contexts: what a caller hands down with a call to end it early.

* `Context`: a token and perhaps a deadline.
* `withToken`, `withDeadline`, `withTimeout?`: a context derived from another. A deadline never
  gets later, and a timeout whose end cannot be represented gives no context.
* `isCancelled`: whether the token is cancelled or the deadline is reached.
-/

namespace ReadThrough

/-- A token and perhaps a deadline. -/
structure Context where
  token : Nat
  deadline : Option Nat
deriving DecidableEq, Inhabited

namespace Context

/-- A context with a token of its own and no deadline. -/
def fresh (f : Forest) : Context × Forest :=
  let (token, f) := f.add none
  (⟨token, none⟩, f)

/-- A context with the same deadline and a token under that of another. -/
def child (c : Context) (f : Forest) : Context × Forest :=
  let (token, f) := f.add (some c.token)
  (⟨token, c.deadline⟩, f)

/-- A context with the same deadline and another token. -/
def withToken (c : Context) (token : Nat) : Context :=
  { c with token := token }

/-- A context with the earlier of its deadline and another. -/
def withDeadline (c : Context) (deadline : Nat) : Context :=
  match c.deadline with
  | some existing => { c with deadline := some (min existing deadline) }
  | none => { c with deadline := some deadline }

/-- A context that is to end a time from now, if the end can be represented. -/
def withTimeout? (c : Context) (now time : Nat) : Option Context :=
  (Instant.after? now time).map c.withDeadline

/-- The wording for a timeout whose end cannot be represented. -/
def overflowMessage : String := "overflow when adding duration to instant"

/-- Whether the deadline is reached. -/
def isOverdue (c : Context) (now : Nat) : Bool :=
  match c.deadline with
  | some deadline => decide (deadline ≤ now)
  | none => false

/-- Whether the token is cancelled or the deadline is reached. -/
def isCancelled (c : Context) (f : Forest) (now : Nat) : Bool :=
  f.isCancelled c.token || c.isOverdue now

end Context

end ReadThrough

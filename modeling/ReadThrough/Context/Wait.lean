import ReadThrough.Context.Basic

/-!
Waiting for the end of a context.

* `Cancellation`: the cancellation of a token that is planned for some time after the start.
* `Context.wakesAt?`: the first instant at which a wait for the context ends, by its token, by its
  deadline or by the planned cancellation.
* `Context.wait`: a wait of limited length, with the instant at which it ends, whether the context
  ended it, and the tokens afterwards.
-/

namespace ReadThrough

/-- The cancellation of a token some time after the start of a wait. -/
structure Cancellation where
  token : Nat
  delay : Nat
deriving DecidableEq

/-- The end of a wait. -/
structure WaitEnd where
  /-- The instant at which the wait ends. -/
  now : Nat
  /-- Whether the end of the context ended it, and not its limit. -/
  isResolved : Bool
  /-- The tokens at its end. -/
  forest : Forest
deriving DecidableEq

namespace Context

/-- The earlier of two instants, of which either may be missing. -/
def earlier? : Option Nat → Option Nat → Option Nat
  | some s, some t => some (min s t)
  | some s, none => some s
  | none, t => t

/-- The instant at which the token of a context is cancelled: now if it is already, later if the
planned cancellation reaches it. -/
def tokenWakesAt? (c : Context) (f : Forest) (now : Nat) (planned : Option Cancellation) :
    Option Nat :=
  if f.isCancelled c.token then some now
  else
    match planned with
    | some p => if (f.cancel p.token).isCancelled c.token then some (now + p.delay) else none
    | none => none

/-- The first instant, not before now, at which a wait for the context ends by itself. -/
def wakesAt? (c : Context) (f : Forest) (now : Nat) (planned : Option Cancellation) : Option Nat :=
  earlier? (c.tokenWakesAt? f now planned) (c.deadline.map fun deadline => max now deadline)

/-- The tokens at an instant of the wait, with the planned cancellation if it is due. -/
def forestAt (f : Forest) (start now : Nat) (planned : Option Cancellation) : Forest :=
  match planned with
  | some p => if start + p.delay ≤ now then f.cancel p.token else f
  | none => f

/-- A wait for the end of the context, but not longer than a limit. A context that ends right at
the limit still ends the wait. -/
def wait (c : Context) (f : Forest) (now limit : Nat) (planned : Option Cancellation) : WaitEnd :=
  let timeUp := now + limit
  match c.wakesAt? f now planned with
  | some instant =>
    if instant ≤ timeUp then ⟨instant, true, forestAt f now instant planned⟩
    else ⟨timeUp, false, forestAt f now timeUp planned⟩
  | none => ⟨timeUp, false, forestAt f now timeUp planned⟩

end Context

end ReadThrough

/-!
Cancellation tokens. A token can descend from an older one; cancelling it cancels all that descend
from it, and a token that is made under a cancelled one is cancelled from the start.

* `Token`, `Forest`: a token with the one it descends from, and all tokens, the newest first. A
  token is named by the number of tokens older than it.
* `Forest.find?`: the token of a name; `Forest.find?_cons` tells it from the newest token on.
* `Forest.add`: one more token.
* `Forest.cancel`: cancels a token and all that descend from it.
* `Forest.isCancelled`: whether a token is cancelled.
-/

namespace ReadThrough

/-- A token: the older one it descends from, and whether it is cancelled. -/
structure Token where
  parent : Option Nat
  isCancelled : Bool
deriving DecidableEq

/-- All tokens, the newest first. A token is named by the number of tokens older than it. -/
structure Forest where
  tokens : List Token
deriving DecidableEq

namespace Forest

/-- The forest without tokens. -/
def empty : Forest := ⟨[]⟩

instance : Inhabited Forest := ⟨empty⟩

/-- The token of a name among tokens, the newest first. -/
def find? (name : Nat) (tokens : List Token) : Option Token :=
  tokens.reverse[name]?

theorem find?_nil (name : Nat) : find? name [] = none := rfl

/-- The newest token is the one that has as many older tokens as its name says. -/
theorem find?_cons (name : Nat) (token : Token) (older : List Token) :
    find? name (token :: older) =
      if older.length = name then some token else find? name older := by
  unfold find?
  rw [List.reverse_cons, List.getElem?_append, List.length_reverse]
  split
  · rename_i is_older
    rw [if_neg (by omega)]
  · rename_i not_older
    rw [List.getElem?_eq_none (l := older.reverse) (by simpa using not_older)]
    rcases Nat.eq_or_lt_of_le (Nat.le_of_not_lt not_older) with same | later
    · simp [same]
    · rw [if_neg (by omega)]
      exact List.getElem?_eq_none (by simp; omega)

/-- Whether the token of a name is cancelled among tokens. -/
def cancelledIn (tokens : List Token) (name : Nat) : Bool :=
  match find? name tokens with
  | some token => token.isCancelled
  | none => false

/-- Whether a token descends from one that is cancelled among older tokens. -/
def parentCancelledIn (older : List Token) (parent : Option Nat) : Bool :=
  match parent with
  | some name => cancelledIn older name
  | none => false

/-- Whether a token is cancelled. -/
def isCancelled (f : Forest) (name : Nat) : Bool :=
  cancelledIn f.tokens name

/-- One more token, under an older one or by itself, and its name. -/
def add (f : Forest) (parent : Option Nat) : Nat × Forest :=
  (f.tokens.length, ⟨⟨parent, parentCancelledIn f.tokens parent⟩ :: f.tokens⟩)

/-- Tokens after the cancellation of one of them, which reaches all that descend from it. -/
def cancelIn (name : Nat) : List Token → List Token
  | [] => []
  | token :: older =>
    let after := cancelIn name older
    let reached := older.length == name || parentCancelledIn after token.parent
    { token with isCancelled := token.isCancelled || reached } :: after

/-- Cancels a token and all that descend from it. -/
def cancel (f : Forest) (name : Nat) : Forest :=
  ⟨cancelIn name f.tokens⟩

end Forest

end ReadThrough

import ReadThrough.Store.Basic

/-!
Backends: what a middleware keeps results in.

* `Backend`: three operations on a state of any type. Each learns whether the context of the caller
  is cancelled, and the time.
* `Backend.memory`: the store of this library.
* `Backend.readOnly`: finds nothing and refuses every write.
* `Backend.heeding`: the store, but for a cancelled caller it finds nothing and refuses to write.
-/

namespace ReadThrough

/-- Operations on a state that keeps bytes under keys. Each learns whether the context of the caller
is cancelled, and the time. -/
structure Backend (σ : Type) where
  get : (isCancelled : Bool) → (now : Nat) → (key : String) → σ → Reply σ (Option Bytes)
  set : (isCancelled : Bool) → (now : Nat) → (key : String) → (value : Bytes) →
    (lifetime : Nat) → σ → Reply σ (Except CacheError Unit)
  delete : (isCancelled : Bool) → (now : Nat) → (key : String) → σ →
    Reply σ (Except CacheError Unit)

namespace Backend

/-- The store, which does not heed contexts. -/
def memory : Backend Store where
  get _ now key s := s.get now key
  set _ now key value lifetime s := s.set now key value lifetime
  delete _ _ key s := s.delete key

/-- Finds nothing, refuses every write, and has nothing to delete. -/
def readOnly {σ : Type} : Backend σ where
  get _ _ _ s := ⟨none, [], s⟩
  set _ _ _ _ _ s := ⟨.error (.backend "read-only"), [], s⟩
  delete _ _ _ s := ⟨.ok (), [], s⟩

/-- The store, but for a cancelled caller it finds nothing and refuses to write. -/
def heeding : Backend Store where
  get isCancelled now key s := if isCancelled then ⟨none, [], s⟩ else s.get now key
  set isCancelled now key value lifetime s :=
    if isCancelled then ⟨.error (.backend "context cancelled"), [], s⟩
    else s.set now key value lifetime
  delete _ _ key s := s.delete key

end Backend

end ReadThrough

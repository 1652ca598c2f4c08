import ReadThrough.Store.Basic

/-!
Operations on a store as data, and their runs on a store with a clock.

* `Change`: the operations that write.
* `Operation`: the writes, the reads, reads with a write between their two steps, and the passing
  of time.
* `Timed`: a state and the instant at which it stands.
* `Operation.run`: one operation, with its answer and its events.
-/

namespace ReadThrough

/-- A state and the instant at which it stands. -/
structure Timed (σ : Type) where
  now : Nat
  state : σ

namespace Store

/-- The operations that write. -/
inductive Change where
  | set (key : String) (value : Bytes) (lifetime : Nat)
  | delete (key : String)
  | sweep
deriving DecidableEq

/-- The operations of a store, and the passing of time. -/
inductive Operation where
  | write (change : Change)
  | get (key : String)
  /-- A read with a write between its lookup and the purge of an expired entry. -/
  | getDuring (key : String) (change : Change)
  | remaining (key : String)
  | size
  | advance (time : Nat)
deriving DecidableEq

/-- The answers of operations. -/
inductive Answer where
  | done (outcome : Except CacheError Unit)
  | removed (count : Nat)
  | value (found : Option Bytes)
  | valueAnd (found : Option Bytes) (other : Answer)
  | remaining (time : Option Nat)
  | size (count : Nat) (isEmpty : Bool)
  | passed

/-- Writes to a store. -/
def Change.run (change : Change) (now : Nat) (s : Store) : Reply Store Answer :=
  match change with
  | .set key value lifetime =>
    let reply := s.set now key value lifetime
    ⟨.done reply.answer, reply.events, reply.state⟩
  | .delete key =>
    let reply := s.delete key
    ⟨.done reply.answer, reply.events, reply.state⟩
  | .sweep =>
    let reply := s.sweep now
    ⟨.removed reply.answer, reply.events, reply.state⟩

/-- A read with a write right after its lookup, before a purge. -/
def getDuring (s : Store) (now : Nat) (key : String) (change : Change) : Reply Store Answer :=
  match s.startGet now key with
  | (.answered value, s) =>
    let other := change.run now s
    ⟨.valueAnd value other.answer, other.events, other.state⟩
  | (.purging, s) =>
    let other := change.run now s
    let reply := other.state.finishGet now key
    ⟨.valueAnd reply.answer other.answer, other.events ++ reply.events, reply.state⟩

/-- One operation on a store with a clock. -/
def Operation.run (operation : Operation) (t : Timed Store) : Reply (Timed Store) Answer :=
  match operation with
  | .write change =>
    let reply := change.run t.now t.state
    ⟨reply.answer, reply.events, { t with state := reply.state }⟩
  | .get key =>
    let reply := t.state.get t.now key
    ⟨.value reply.answer, reply.events, { t with state := reply.state }⟩
  | .getDuring key change =>
    let reply := t.state.getDuring t.now key change
    ⟨reply.answer, reply.events, { t with state := reply.state }⟩
  | .remaining key => ⟨.remaining (t.state.remaining? t.now key), [], t⟩
  | .size => ⟨.size t.state.size t.state.isEmpty, [], t⟩
  | .advance time => ⟨.passed, [], { t with now := t.now + time }⟩

end Store

end ReadThrough

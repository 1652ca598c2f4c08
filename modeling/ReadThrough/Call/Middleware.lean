import ReadThrough.Call.Backend
import ReadThrough.Call.Outcome
import ReadThrough.Context.Basic
import ReadThrough.Key.Derive
import ReadThrough.Policy.Basic
import ReadThrough.Skip

/-!
The middleware: a call is answered from the cache, or its tool runs and the result is kept.

* `Middleware`: a keyer, a policy and perhaps a skip rule of its own.
* `World`: all that calls share: the clock, the tokens, the state of the backend, the number of
  runs of tools, the events so far, and whether a timeout went beyond the last instant.
* `Middleware.enter`: whether a call may use the cache, and under which key.
* `Middleware.start`, `Middleware.finish`: what happens before the tool of a call runs, and after.
* `Middleware.execute`: a whole call. The tool may do anything to the world.

A failure of the cache never fails a call: without a key the tool runs uncached, and a write that
fails leaves the outcome as it is.
-/

namespace ReadThrough

/-- A keyer, a policy, and perhaps a skip rule in place of the rule for unsafe tags. -/
structure Middleware where
  keyer : Keyer
  policy : Policy
  skipRule : Option SkipRule

/-- All that calls share. -/
structure World (σ : Type) where
  now : Nat
  forest : Forest
  store : σ
  /-- The number of runs of tools so far. -/
  runs : Nat
  /-- The events so far, the oldest first. -/
  events : List Event
  /-- Whether a caller has set a timeout whose end cannot be represented. A caller must not, and no
  answer counts from then on. -/
  overflowed : Bool

/-- A tool at work: it may do anything to the world before it ends. -/
abbrev Tool (σ : Type) := World σ → Outcome × World σ

namespace World

variable {σ : Type}

/-- The world before the first call, on a state of the backend. -/
def start (store : σ) : World σ :=
  ⟨0, Forest.empty, store, 0, [], false⟩

/-- The world after more events. -/
def emit (w : World σ) (events : List Event) : World σ :=
  { w with events := w.events ++ events }

/-- The world some time later. -/
def advance (w : World σ) (time : Nat) : World σ :=
  { w with now := w.now + time }

/-- Whether a context is cancelled by now. -/
def isCancelled (w : World σ) (c : Context) : Bool :=
  c.isCancelled w.forest w.now

/-- The world after an operation of the backend, and its answer. -/
def receive {α : Type} (w : World σ) (reply : Reply σ α) : α × World σ :=
  (reply.answer, { w with store := reply.state, events := w.events ++ reply.events })

/-- Looks a key up on behalf of a context. -/
def get (w : World σ) (b : Backend σ) (c : Context) (key : String) : Option Bytes × World σ :=
  w.receive (b.get (w.isCancelled c) w.now key w.store)

/-- Writes under a key on behalf of a context. -/
def set (w : World σ) (b : Backend σ) (c : Context) (key : String) (value : Bytes)
    (lifetime : Nat) : Except CacheError Unit × World σ :=
  w.receive (b.set (w.isCancelled c) w.now key value lifetime w.store)

end World

namespace Middleware

/-- Whether a call stays away from the cache. A policy that allows unsafe tools silences every
rule. -/
def skips (m : Middleware) (toolId : String) (tags : List String) : Bool :=
  if m.policy.unsafeAllowed then false
  else
    match m.skipRule with
    | some rule => rule.applies toolId tags
    | none => hasUnsafeTag tags

/-- The key under which a call uses the cache, if it does, and the event that tells why not. -/
def enter (m : Middleware) (call : Call) : Option String × List Event :=
  if m.skips call.toolId call.tags then (none, [.bypassed call.toolId call.tags])
  else
    match m.keyer call.toolId call.input with
    | .ok key => (some key, [])
    | .error error => (none, [.keyFailed call.toolId error])

/-- The event of a lookup. -/
def lookupEvent (call : Call) (key : String) : Option Bytes → Event
  | some _ => .hit call.toolId key
  | none => .miss call.toolId key

/-- What a call needs after its lookup. -/
inductive Started where
  /-- Nothing more: the cache has answered. -/
  | answered (value : Bytes)
  /-- A run of its tool, whose result is to be kept under the key, if there is one. -/
  | run (key : Option String)
deriving DecidableEq

variable {σ : Type}

/-- A call up to the run of its tool. -/
def start (m : Middleware) (b : Backend σ) (c : Context) (call : Call) (w : World σ) :
    Started × World σ :=
  match m.enter call with
  | (none, events) => (.run none, w.emit events)
  | (some key, events) =>
    let (found, w) := (w.emit events).get b c key
    let w := w.emit [lookupEvent call key found]
    match found with
    | some value => (.answered value, w)
    | none => (.run (some key), w)

/-- Keeps the bytes of a tool under a key, if the policy gives them a lifetime. -/
def keep (m : Middleware) (b : Backend σ) (c : Context) (call : Call) (key : String)
    (value : Bytes) (w : World σ) : World σ :=
  let lifetime := m.policy.lifetime 0
  if lifetime = 0 then w.emit [.notCaching call.toolId key]
  else
    match w.set b c key value lifetime with
    | (.ok _, w) => w
    | (.error error, w) => w.emit [.writeFailed call.toolId key lifetime error]

/-- A call after the run of its tool: a success is kept under the key of the call. -/
def finish (m : Middleware) (b : Backend σ) (c : Context) (call : Call) (key : Option String)
    (outcome : Outcome) (w : World σ) : World σ :=
  match key, outcome with
  | some key, .ok value => m.keep b c call key value w
  | _, _ => w

/-- A whole call. The outcome of a tool that runs is the outcome of the call. -/
def execute (m : Middleware) (b : Backend σ) (c : Context) (call : Call) (tool : Tool σ)
    (w : World σ) : Outcome × World σ :=
  match m.start b c call w with
  | (.answered value, w) => (.ok value, w)
  | (.run key, w) =>
    let (outcome, w) := tool w
    (outcome, m.finish b c call key outcome w)

/-- The middleware with a skip rule. -/
def withSkipRule (m : Middleware) (rule : SkipRule) : Middleware :=
  { m with skipRule := some rule }

/-- The middleware as text. -/
def text (m : Middleware) : String :=
  "CacheMiddleware \x7b policy: " ++ m.policy.text ++ ", custom_skip_rule: " ++
    (if m.skipRule.isSome then "true" else "false") ++ ", .. \x7d"

end Middleware

end ReadThrough

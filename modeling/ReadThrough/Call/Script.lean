import ReadThrough.Call.Middleware

/-!
Scripted tools: tools whose behaviour is data, with which runs of a middleware can be rehearsed.

* `Request`: a call with the state of its context and the time its tool takes.
* `Behaviour`: what a scripted tool does once that time has passed. It can call another tool through
  the same middleware.
* `Behaviour.outcome`: the outcome of a tool that calls no other.
* `Rehearsal`: a middleware with its backend.
* `Rehearsal.runTool`, `Rehearsal.call`: the run of a scripted tool, and a whole call with it.
-/

namespace ReadThrough

/-- A call with the state of its context and the time its tool takes. -/
structure Request where
  call : Call
  /-- Whether the context is cancelled before the call. -/
  isCancelled : Bool
  /-- The time after which the context ends. -/
  timeout : Option Nat
  /-- The time that a run of the tool takes; a run that takes none does not pause. -/
  delay : Nat

/-- What a scripted tool does. -/
inductive Behaviour where
  /-- Gives its name and the number of the run. -/
  | count
  /-- Gives the canonical text of its input. -/
  | echo
  | give (value : Bytes)
  | fail (message : String)
  /-- Fails with a message about a cause. -/
  | failDuring (message cause : String)
  /-- Fails with an error of a backend. -/
  | failBackend (reason : String)
  /-- Succeeds in one run only, told by its number. -/
  | succeedOn (run : Nat)
  /-- Fails if its context is cancelled. -/
  | heed
  /-- Calls another tool through the same middleware. -/
  | nested (request : Request) (inner : Behaviour)

namespace Behaviour

/-- The UTF-8 bytes of a list of characters. -/
def bytesOf (cs : List Char) : Bytes :=
  Utf8.bytes (String.ofList cs)

/-- The bytes of a tool that has called another: the number of its run and what it got. -/
def nestedBytes (run : Nat) (inner : Outcome) : Bytes :=
  let got : List Char :=
    match inner with
    | .ok value => Hex.ofBytes value
    | .error error => '!' :: error.message.toList
  bytesOf ("outer#".toList ++ natText run ++ '(' :: got ++ [')'])

/-- The outcome of a tool that calls no other, from the number of its run and whether its context
is cancelled; a tool that calls another gets the outcome of that call. -/
def outcome (call : Call) (run : Nat) (isCancelled : Bool) (inner : Outcome) :
    Behaviour → Outcome
  | .count => .ok (bytesOf (call.toolId.toList ++ '#' :: natText run))
  | .echo => .ok (Utf8.bytes call.input.encode)
  | .give value => .ok value
  | .fail message => .error (.plain message)
  | .failDuring message cause => .error (.during message (.plain cause))
  | .failBackend reason => .error (.cache (.backend reason))
  | .succeedOn only =>
    if run = only then .ok (bytesOf "recovered".toList)
    else .error (.plain (String.ofList ("attempt ".toList ++ natText run ++ " failed".toList)))
  | .heed =>
    if isCancelled then .error (.plain "cancelled") else .ok (bytesOf "done".toList)
  | .nested _ _ => .ok (nestedBytes run inner)

/-- The number of tools that a run of a tool can go through, itself included. -/
def depth : Behaviour → Nat
  | .nested _ inner => inner.depth + 1
  | _ => 1

end Behaviour

/-- A middleware with its backend. -/
structure Rehearsal (σ : Type) where
  middleware : Middleware
  backend : Backend σ

namespace World

variable {σ : Type}

/-- Makes the context of a request. A timeout whose end cannot be represented sets no deadline, and
the world remembers it. -/
def openContext (w : World σ) (r : Request) : Context × World σ :=
  let (c, f) := Context.fresh w.forest
  let w := { w with forest := if r.isCancelled then f.cancel c.token else f }
  match r.timeout with
  | none => (c, w)
  | some time =>
    match c.withTimeout? w.now time with
    | some timed => (timed, w)
    | none => (c, { w with overflowed := true })

/-- Counts one more run of a tool and tells its number. -/
def countRun (w : World σ) : Nat × World σ :=
  (w.runs + 1, { w with runs := w.runs + 1 })

end World

namespace Rehearsal

variable {σ : Type}

/-- A run of a scripted tool: it is counted, takes its time, and then behaves. -/
def runTool (r : Rehearsal σ) (request : Request) (c : Context) : Behaviour → Tool σ
  | .nested inner behaviour, w =>
    let (run, w) := w.countRun
    let w := w.advance request.delay
    let (d, w) := w.openContext inner
    let (got, w) := r.middleware.execute r.backend d inner.call (r.runTool inner d behaviour) w
    (.ok (Behaviour.nestedBytes run got), w)
  | behaviour, w =>
    let (run, w) := w.countRun
    let w := w.advance request.delay
    (behaviour.outcome request.call run (w.isCancelled c) (.ok []), w)

/-- A whole call of a scripted tool. -/
def call (r : Rehearsal σ) (request : Request) (behaviour : Behaviour) (w : World σ) :
    Outcome × World σ :=
  let (c, w) := w.openContext request
  r.middleware.execute r.backend c request.call (r.runTool request c behaviour) w

end Rehearsal

end ReadThrough

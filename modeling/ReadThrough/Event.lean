import ReadThrough.CacheError
import ReadThrough.Time

/-!
Events: what the store and the calls report while they work.

* `Event`: what happened, with what it happened to.
* `Event.level`, `Event.message`, `Event.fields`, `Event.lists`: an event as a log line.
-/

namespace ReadThrough

/-- How serious an event is. -/
inductive Level where
  | debug
  | warning
deriving DecidableEq

/-- The name of a level. -/
def Level.name : Level → String
  | .debug => "DEBUG"
  | .warning => "WARN"

/-- What happened in the store or in a call. -/
inductive Event where
  /-- A rule keeps a call away from the cache. -/
  | bypassed (toolId : String) (tags : List String)
  /-- A call has no key. -/
  | keyFailed (toolId : String) (error : CacheError)
  /-- A call is answered from the cache. -/
  | hit (toolId key : String)
  /-- The cache has nothing for a call. -/
  | miss (toolId key : String)
  /-- The policy gives a result no lifetime. -/
  | notCaching (toolId key : String)
  /-- The store refuses a result that was to live for a time. -/
  | writeFailed (toolId key : String) (lifetime : Nat) (error : CacheError)
  /-- A write without lifetime is left out. -/
  | writeSkipped (key : String)
  /-- A reader removes an expired entry. -/
  | purgedOnRead (key : String)
  /-- A sweep removes expired entries. -/
  | purged (count : Nat)
deriving DecidableEq

namespace Event

/-- How serious an event is: only failures are warnings. -/
def level : Event → Level
  | .keyFailed .. => .warning
  | .writeFailed .. => .warning
  | _ => .debug

/-- The wording of an event. -/
def message : Event → String
  | .bypassed .. => "cache bypassed by skip rule"
  | .keyFailed .. => "key derivation failed, executing uncached"
  | .hit .. => "cache hit"
  | .miss .. => "cache miss"
  | .notCaching .. => "policy ttl is zero, not caching"
  | .writeFailed .. => "failed to cache tool result"
  | .writeSkipped .. => "zero ttl, skipping write"
  | .purgedOnRead .. => "purged expired entry on read"
  | .purged .. => "purged expired entries"

/-- The named details of an event that are texts. -/
def fields : Event → List (String × String)
  | .bypassed toolId _ => [("tool_id", toolId)]
  | .keyFailed toolId error => [("tool_id", toolId), ("error", error.message)]
  | .hit toolId key => [("tool_id", toolId), ("key", key)]
  | .miss toolId key => [("tool_id", toolId), ("key", key)]
  | .notCaching toolId key => [("tool_id", toolId), ("key", key)]
  | .writeFailed toolId key lifetime error =>
    [("tool_id", toolId), ("key", key),
     ("ttl_ms", String.ofList (natText (Duration.milliseconds lifetime).toNat)),
     ("error", error.message)]
  | .writeSkipped key => [("key", key)]
  | .purgedOnRead key => [("key", key)]
  | .purged count => [("removed", String.ofList (natText count))]

/-- The named details of an event that are lists of texts. They are handed on as lists; how one is
written is up to the reader of the log. -/
def lists : Event → List (String × List String)
  | .bypassed _ tags => [("tags", tags)]
  | _ => []

end Event

end ReadThrough

import ReadThrough.CacheError
import ReadThrough.Store.Entry
import ReadThrough.Value.Basic

/-!
Calls of tools and how they end.

* `Call`: a tool, its input and its tags.
* `ToolError`: why a tool failed, with the causes behind it.
* `Outcome`: the bytes of a tool or its error.
-/

namespace ReadThrough

/-- A call: the name of a tool, its input, and the tags that tell about side effects. -/
structure Call where
  toolId : String
  input : Value
  tags : List String

/-- Why a tool failed. -/
inductive ToolError where
  | plain (message : String)
  | cache (error : CacheError)
  /-- A message about what was going on when the cause arose. -/
  | during (message : String) (cause : ToolError)
deriving DecidableEq

namespace ToolError

/-- The outermost message. -/
def message : ToolError → String
  | .plain message => message
  | .cache error => error.message
  | .during message _ => message

/-- The messages from the outermost one to the first cause. -/
def chain : ToolError → List String
  | .plain message => [message]
  | .cache error => [error.message]
  | .during message cause => message :: cause.chain

/-- The error of the cache at the bottom, if it is one. -/
def cacheError? : ToolError → Option CacheError
  | .plain _ => none
  | .cache error => some error
  | .during _ cause => cause.cacheError?

end ToolError

/-- The bytes of a tool or its error. -/
abbrev Outcome := Except ToolError Bytes

/-- The text under which a tool that is made of a function shows. -/
def functionToolText : String := "FnExecutor \x7b .. \x7d"

end ReadThrough

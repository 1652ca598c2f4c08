import ReadThrough.Number.Whole

/-!
Errors of the cache itself. A failing tool never makes one.

* `CacheError`: a key no store accepts, an input without canonical form, a failing store.
* `CacheError.message`: the wording.
* `CacheError.isInvalidKey`: whether the key was at fault.
-/

namespace ReadThrough

/-- Errors of the cache itself. -/
inductive CacheError where
  | invalidKey (reason : String)
  | keyTooLong (length limit : Nat)
  | encoding (reason : String)
  | backend (reason : String)
deriving DecidableEq

namespace CacheError

/-- The wording of an error. -/
def message : CacheError → String
  | .invalidKey reason => "toolcache: key is invalid: " ++ reason
  | .keyTooLong length limit =>
    "toolcache: key exceeds max length of " ++ String.ofList (natText limit) ++
      " bytes (got " ++ String.ofList (natText length) ++ ")"
  | .encoding reason => "toolcache: failed to canonicalize input: " ++ reason
  | .backend reason => "toolcache: backend error: " ++ reason

/-- Whether the key was at fault. -/
def isInvalidKey : CacheError → Bool
  | .invalidKey _ => true
  | .keyTooLong _ _ => true
  | _ => false

end CacheError

end ReadThrough

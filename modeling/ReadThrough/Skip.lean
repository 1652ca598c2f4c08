import ReadThrough.Number.Whole
import ReadThrough.Text.Ascii

/-!
Skip rules: which calls stay away from the cache.

* `unsafeTags`: the tags of tools with side effects.
* `hasUnsafeTag`: whether a tag is one of them, in ASCII letters of any case.
* `SkipRule`: the unsafe tags, names of tools that start with given texts, any predicate, and the
  union of several rules.
* `SkipRule.applies`: whether a rule keeps a call away from the cache.
-/

namespace ReadThrough

/-- The tags of tools with side effects. -/
def unsafeTags : List String := ["write", "danger", "unsafe", "mutation", "delete"]

/-- Whether one of the tags marks a tool with side effects. -/
def hasUnsafeTag (tags : List String) : Bool :=
  tags.any fun tag => unsafeTags.any fun marked => equalsIgnoringCase tag marked

/-- Decides which calls stay away from the cache, by the name of the tool and the tags. -/
inductive SkipRule where
  /-- Calls with an unsafe tag. -/
  | unsafeTagged
  /-- Calls of tools whose name starts with one of the texts. -/
  | startingWith (starts : List String)
  /-- Calls that a predicate chooses. -/
  | chosenBy (choose : String → List String → Bool)
  /-- Calls to which one of the rules applies; none if there are no rules. -/
  | anyOf (rules : List SkipRule)

namespace SkipRule

/-- Lets every call use the cache. -/
def never : SkipRule := .chosenBy fun _ _ => false

mutual

/-- Whether a rule keeps a call away from the cache. -/
def applies (toolId : String) (tags : List String) : SkipRule → Bool
  | .unsafeTagged => hasUnsafeTag tags
  | .startingWith starts => starts.any fun start => start.toList.isPrefixOf toolId.toList
  | .chosenBy choose => choose toolId tags
  | .anyOf rules => someApplies toolId tags rules
termination_by structural rule => rule

/-- Whether one of the rules keeps a call away from the cache. -/
def someApplies (toolId : String) (tags : List String) : List SkipRule → Bool
  | [] => false
  | rule :: rest => applies toolId tags rule || someApplies toolId tags rest
termination_by structural rules => rules

end

/-- A union of rules as text. -/
def anyOfText (rules : List SkipRule) : String :=
  "AnyOf \x7b rules: " ++ String.ofList (natText rules.length) ++ " \x7d"

end SkipRule

end ReadThrough

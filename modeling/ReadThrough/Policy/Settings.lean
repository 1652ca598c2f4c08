import ReadThrough.Policy.Basic
import ReadThrough.Text.Ascii
import ReadThrough.Text.Blank

/-!
Settings: a policy as the environment of a process gives it.

* `Settings`: the lifetimes in seconds and the switch.
* `Settings.readWord?`, `Settings.readSwitch?`: the texts that set a number or the switch.
* `Settings.ofLookup`: the settings of three variables, each by itself; a missing or unreadable
  one leaves its default.
* `Settings.ofEnvironment`: the same for variables that are bytes; one that is not UTF-8 counts as
  missing.
* `Settings.policy`: the policy of settings.
-/

namespace ReadThrough

/-- A policy as the environment of a process gives it. -/
structure Settings where
  /-- The usual lifetime in seconds. -/
  usual : UInt64
  /-- The greatest lifetime in seconds. -/
  greatest : UInt64
  /-- Whether results of unsafe tools are kept. -/
  unsafeAllowed : Bool
deriving DecidableEq

namespace Settings

/-- The settings of an empty environment. -/
def standard : Settings := ⟨300, 3600, false⟩

/-- Digits, at least one, as a word, if the number fits. -/
def readDigits? (cs : List Char) : Option UInt64 :=
  if cs ≠ [] ∧ cs.all isDigit then
    match gatherDigits 0 cs with
    | (word, []) => some word
    | (_, _ :: _) => none
  else none

/-- A number between blanks: digits, with a plus sign or without. -/
def readWord? (s : String) : Option UInt64 :=
  match Text.trim s.toList with
  | '+' :: digits => readDigits? digits
  | digits => readDigits? digits

/-- The words that turn a switch on. -/
def wordsOn : List String := ["true", "1", "yes", "on"]

/-- The words that turn a switch off. -/
def wordsOff : List String := ["false", "0", "no", "off"]

/-- A switch between blanks: one of its words in ASCII letters of any case. -/
def readSwitch? (s : String) : Option Bool :=
  let word := String.ofList ((Text.trim s.toList).map lowerAscii)
  if word ∈ wordsOn then some true
  else if word ∈ wordsOff then some false
  else none

/-- The settings of three variables. -/
def ofLookup (lookup : String → Option String) : Settings where
  usual := ((lookup "TOOLCACHE_DEFAULT_TTL").bind readWord?).getD standard.usual
  greatest := ((lookup "TOOLCACHE_MAX_TTL").bind readWord?).getD standard.greatest
  unsafeAllowed :=
    ((lookup "TOOLCACHE_ALLOW_UNSAFE").bind readSwitch?).getD standard.unsafeAllowed

/-- The settings of variables that are bytes. -/
def ofEnvironment (lookup : String → Option ByteArray) : Settings :=
  ofLookup fun name => (lookup name).bind String.fromUTF8?

/-- The policy of settings. -/
def policy (s : Settings) : Policy where
  usual := Duration.ofSeconds s.usual.toNat
  greatest := Duration.ofSeconds s.greatest.toNat
  unsafeAllowed := s.unsafeAllowed

end Settings

end ReadThrough

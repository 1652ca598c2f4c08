import ReadThrough.CacheError
import ReadThrough.Text.Blank
import ReadThrough.Text.Utf8

/-!
Keys of the cache, and which of them a store accepts.

* `Key.maxBytes`: the greatest length of a key in UTF-8.
* `Key.check`: refuses a key that is blank, too long, or broken into lines, in this order.
-/

namespace ReadThrough.Key

/-- The greatest length of a key, in bytes of UTF-8. -/
def maxBytes : Nat := 512

/-- Whether a character ends a line. -/
def isLineBreak (c : Char) : Bool :=
  c == '\r' || c == '\n'

/-- Refuses a key that is blank, longer than `maxBytes`, or broken into lines. Of several faults
the first in this order is reported. -/
def check (key : String) : Except CacheError Unit :=
  if Text.isBlankText key.toList then .error (.invalidKey "empty key")
  else if maxBytes < key.utf8ByteSize then .error (.keyTooLong key.utf8ByteSize maxBytes)
  else if key.toList.any isLineBreak then .error (.invalidKey "key contains a line break")
  else .ok ()

/-- Whether a store accepts the key. -/
def isValid (key : String) : Bool :=
  match check key with
  | .ok _ => true
  | .error _ => false

end ReadThrough.Key

import ReadThrough.Digest.Sha256
import ReadThrough.Key.Basic
import ReadThrough.Value.Canonical

/-!
Keys derived from a tool and its input.

* `Keyer`: what derives keys.
* `Key.derive`: the key `toolcache:<tool>:<digits>`, whose digits are the first bytes of the digest
  of the input's canonical text. The digest is a parameter.
* `Keyer.standard`: the same with SHA-256; it never fails.
-/

namespace ReadThrough

/-- Derives the key of a tool and its input, or fails. -/
abbrev Keyer := String → Value → Except CacheError String

namespace Key

/-- The namespace that every derived key starts with. -/
def family : String := "toolcache"

/-- The number of bytes of the digest that a key keeps. -/
def digestBytes : Nat := 8

/-- The bytes of the digest of the input's canonical text that a key keeps. -/
def digestOf (digest : List UInt8 → Vector UInt8 32) (input : Value) : List UInt8 :=
  (digest (Utf8.bytes input.encode)).toList.take digestBytes

/-- The key of a tool and its input under a digest. -/
def derive (digest : List UInt8 → Vector UInt8 32) (toolId : String) (input : Value) : String :=
  family ++ ":" ++ toolId ++ ":" ++ String.ofList (Hex.ofBytes (digestOf digest input))

end Key

/-- Derives keys with SHA-256. -/
def Keyer.standard : Keyer := fun toolId input =>
  .ok (Key.derive Sha256.digest toolId input)

end ReadThrough

import ReadThrough.Text.Hex

/-!
Quoted text.

* `escape`, `quoteOnto`: the written form. A quote, a backslash, a line feed, a carriage return
  and a tab have escapes of two characters, the other control characters the escape with four
  hexadecimal digits, and all else stands for itself.
* `readBody`: the reading of a quoted text after its opening quote. It knows every escape,
  written or not; half a surrogate pair, a bare control character and an unknown escape are
  refused.
-/

namespace ReadThrough.Quoted

/-! ### Writing -/

/-- A character inside quotes. -/
def escape (c : Char) : List Char :=
  if c = '"' then ['\\', '"']
  else if c = '\\' then ['\\', '\\']
  else if c = '\n' then ['\\', 'n']
  else if c = '\r' then ['\\', 'r']
  else if c = '\t' then ['\\', 't']
  else if c.toNat < 0x20 then
    ['\\', 'u', '0', '0', Hex.digit (c.toNat / 16), Hex.digit (c.toNat % 16)]
  else [c]

/-- A text between quotes, followed by `rest`. -/
def quoteOnto (cs rest : List Char) : List Char :=
  '"' :: cs.foldr (fun c acc => escape c ++ acc) ('"' :: rest)

/-! ### Reading -/

/-- The value of a hexadecimal digit of either case. -/
def hexValue? (c : Char) : Option Nat :=
  let n := c.toNat
  if 48 ≤ n ∧ n ≤ 57 then some (n - 48)
  else if 97 ≤ n ∧ n ≤ 102 then some (n - 87)
  else if 65 ≤ n ∧ n ≤ 70 then some (n - 55)
  else none

/-- Four hexadecimal digits. -/
def readQuad : List Char → Option (Nat × List Char)
  | a :: b :: c :: d :: rest => do
    let a ← hexValue? a
    let b ← hexValue? b
    let c ← hexValue? c
    let d ← hexValue? d
    some (((a * 16 + b) * 16 + c) * 16 + d, rest)
  | _ => none

/-- Whether a number is the first half of a surrogate pair. -/
def isHighSurrogate (n : Nat) : Bool :=
  decide (0xD800 ≤ n) && decide (n < 0xDC00)

/-- Whether a number is the second half of a surrogate pair. -/
def isLowSurrogate (n : Nat) : Bool :=
  decide (0xDC00 ≤ n) && decide (n < 0xE000)

/-- The character of an escape with hexadecimal digits, after its letter `u`. The first half of a
surrogate pair needs the second half right behind it. -/
def readUnicode (cs : List Char) : Option (Char × List Char) :=
  match readQuad cs with
  | none => none
  | some (high, rest) =>
    if isHighSurrogate high then
      match rest with
      | '\\' :: 'u' :: rest =>
        match readQuad rest with
        | some (low, rest) =>
          if isLowSurrogate low then
            some (Char.ofNat (0x10000 + (high - 0xD800) * 0x400 + (low - 0xDC00)), rest)
          else none
        | none => none
      | _ => none
    else if isLowSurrogate high then none
    else some (Char.ofNat high, rest)

/-- The character of an escape of two characters. -/
def shortEscape? : Char → Option Char
  | '"' => some '"'
  | '\\' => some '\\'
  | '/' => some '/'
  | 'b' => some '\x08'
  | 'f' => some '\x0c'
  | 'n' => some '\n'
  | 'r' => some '\r'
  | 't' => some '\t'
  | _ => none

/-- The next character inside quotes, written by itself or as an escape. -/
def readChar : List Char → Option (Char × List Char)
  | '\\' :: 'u' :: rest => readUnicode rest
  | '\\' :: e :: rest => (shortEscape? e).map fun c => (c, rest)
  | c :: rest => if c = '\\' ∨ c.toNat < 0x20 then none else some (c, rest)
  | [] => none

/-- A quoted text after its opening quote, of at most `limit` characters, and what follows the
closing quote. -/
def readBody : Nat → List Char → Option (List Char × List Char)
  | _, '"' :: rest => some ([], rest)
  | 0, _ => none
  | limit + 1, cs =>
    match readChar cs with
    | none => none
    | some (c, rest) =>
      match readBody limit rest with
      | none => none
      | some (body, rest) => some (c :: body, rest)

end ReadThrough.Quoted

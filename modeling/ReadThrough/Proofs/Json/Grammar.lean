import Mathlib.Tactic.Common
import ReadThrough.Json.Numeral
import ReadThrough.Proofs.Number.Rounding
import ReadThrough.Text.Quoted

/-!
The grammar of JSON texts and what they stand for, independent of how they are written and read.

* `Grammar.Numeral`, `Numeral.Stands`: numerals with their parts, and the number that a numeral
  stands for. It is the whole number where a word can hold it, and the double nearest to the numeral
  elsewhere; beyond the range of doubles there is none.
* `Grammar.Text`: a quoted text. Half a surrogate pair stands for nothing.
* `Grammar.Value`: a value, with the elements and the members that values are made of.
* `IsTextOf`: a whole text, which is one value between white space. The members of an object are in
  the order given.
* `Reads`: what is asked of a reader of JSON texts.
-/

namespace ReadThrough.Json

/-! ### Numbers -/

/-- Decimal digits, at least one. -/
def Digits (cs : List Char) : Prop :=
  cs ≠ [] ∧ ∀ c ∈ cs, isDigit c = true

namespace Numeral

/-- Whether a numeral is that of a whole number which a word can hold, signed or not. Minus zero is
none. -/
def FitsWord (n : Numeral) : Prop :=
  n.isWhole = true ∧
    if n.negative then value n.whole ≠ 0 ∧ value n.whole ≤ 2 ^ 63 else value n.whole < 2 ^ 64

/-- The exponent that scales the digits of a numeral before and after the point. -/
def scale (n : Numeral) : Int :=
  n.exponent.elim 0 Exponent.power - (n.fraction.length : Int)

/-- The number that a numeral stands for. -/
inductive Stands (n : Numeral) : Number → Prop
  | natural (fits : n.FitsWord) (sign : n.negative = false) :
    Stands n (.natural (UInt64.ofNat (value n.whole)))
  | negative (fits : n.FitsWord) (sign : n.negative = true)
    (below : Int64.ofInt (-(value n.whole : Int)) < 0) : Stands n (.negative _ below)
  | real (beyond : ¬n.FitsWord) {x : Binary64} (finite : x.isFinite = true)
    (sign : x.isNegative = n.negative)
    (nearest : x.NearestTo (value (n.whole ++ n.fraction)) n.scale) : Stands n (.real x finite)

end Numeral

namespace Grammar

/-- The digits before the point: a zero, or digits that do not start with one. -/
inductive Whole : List Char → Prop
  | zero : Whole ['0']
  | digits {c : Char} {rest : List Char} (first : c ≠ '0') (all : Digits (c :: rest)) :
    Whole (c :: rest)

/-- A point with digits behind it, or nothing. -/
inductive Fraction : List Char → List Char → Prop
  | absent : Fraction [] []
  | present {cs : List Char} (digits : Digits cs) : Fraction ('.' :: cs) cs

/-- The letter `e` of either case with digits behind it that may have a sign, or nothing. -/
inductive Power : List Char → Option Exponent → Prop
  | absent : Power [] none
  | unsigned {letter : Char} {cs : List Char} (known : letter ∈ ['e', 'E']) (digits : Digits cs) :
    Power (letter :: cs) (some ⟨false, cs⟩)
  | plus {letter : Char} {cs : List Char} (known : letter ∈ ['e', 'E']) (digits : Digits cs) :
    Power (letter :: '+' :: cs) (some ⟨false, cs⟩)
  | minus {letter : Char} {cs : List Char} (known : letter ∈ ['e', 'E']) (digits : Digits cs) :
    Power (letter :: '-' :: cs) (some ⟨true, cs⟩)

/-- A numeral: perhaps a minus sign, the digits before the point, a fraction and an exponent. -/
inductive Numeral : List Char → Json.Numeral → Prop
  | parts (negative : Bool) {whole point fraction power : List Char} {exponent : Option Exponent}
    (is_whole : Whole whole) (is_fraction : Fraction point fraction)
    (is_power : Power power exponent) :
    Numeral ((if negative then ['-'] else []) ++ (whole ++ (point ++ power)))
      ⟨negative, whole, fraction, exponent⟩

/-- A numeral and the number that it stands for. -/
def Number (cs : List Char) (number : Json.Number) : Prop :=
  ∃ n, Numeral cs n ∧ n.Stands number

/-! ### Quoted texts -/

/-- The escapes of two characters, each with what it stands for. -/
def shortEscapes : List (Char × Char) :=
  [('"', '"'), ('\\', '\\'), ('/', '/'), ('b', '\x08'), ('f', '\x0c'), ('n', '\n'), ('r', '\r'),
    ('t', '\t')]

/-- Four hexadecimal digits, of either case, and their number. -/
inductive Quad : List Char → Nat → Prop
  | digits {a b c d : Char} {k l m n : Nat} (first : Quoted.hexValue? a = some k)
    (second : Quoted.hexValue? b = some l) (third : Quoted.hexValue? c = some m)
    (fourth : Quoted.hexValue? d = some n) :
    Quad [a, b, c, d] (((k * 16 + l) * 16 + m) * 16 + n)

/-- A character between quotes, by itself or as an escape. -/
inductive Character : List Char → Char → Prop
  | plain {c : Char} (printable : 0x20 ≤ c.toNat) (no_quote : c ≠ '"') (no_backslash : c ≠ '\\') :
    Character [c] c
  | short {letter c : Char} (known : (letter, c) ∈ shortEscapes) : Character ['\\', letter] c
  | unicode {cs : List Char} {n : Nat} (quad : Quad cs n) (no_half : n < 0xD800 ∨ 0xE000 ≤ n) :
    Character ('\\' :: 'u' :: cs) (Char.ofNat n)
  | pair {cs ds : List Char} {high low : Nat} (first : Quad cs high) (second : Quad ds low)
    (is_high : 0xD800 ≤ high ∧ high < 0xDC00) (is_low : 0xDC00 ≤ low ∧ low < 0xE000) :
    Character ('\\' :: 'u' :: (cs ++ '\\' :: 'u' :: ds))
      (Char.ofNat (0x10000 + (high - 0xD800) * 0x400 + (low - 0xDC00)))

/-- Characters one after another. -/
inductive Characters : List Char → List Char → Prop
  | nil : Characters [] []
  | cons {cs rest : List Char} {c : Char} {others : List Char} : Character cs c →
    Characters rest others → Characters (cs ++ rest) (c :: others)

/-- A text between quotes. -/
inductive Text : List Char → String → Prop
  | quoted {cs body : List Char} : Characters cs body →
    Text ('"' :: (cs ++ ['"'])) (String.ofList body)

/-! ### Values -/

/-- The characters of white space. -/
def spaces : List Char := [' ', '\t', '\n', '\r']

/-- White space, perhaps none. -/
def Blank (cs : List Char) : Prop :=
  ∀ c ∈ cs, c ∈ spaces

/-- Parts with commas between them, at least one. -/
inductive Listed {α : Type} (part : List Char → α → Prop) : List Char → List α → Prop
  | last {cs : List Char} {a : α} : part cs a → Listed part cs [a]
  | more {cs rest : List Char} {a : α} {others : List α} : part cs a → Listed part rest others →
    Listed part (cs ++ ',' :: rest) (a :: others)

mutual

/-- A value. -/
inductive Value : List Char → Json → Prop
  | null : Value ['n', 'u', 'l', 'l'] .null
  | yes : Value ['t', 'r', 'u', 'e'] (.bool true)
  | no : Value ['f', 'a', 'l', 's', 'e'] (.bool false)
  | number {cs : List Char} {n : Json.Number} : Number cs n → Value cs (.number n)
  | text {cs : List Char} {s : String} : Text cs s → Value cs (.text s)
  | emptyArray {blank : List Char} : Blank blank → Value ('[' :: (blank ++ [']'])) (.array [])
  | array {cs : List Char} {items : List Json} : Listed Element cs items →
    Value ('[' :: (cs ++ [']'])) (.array items)
  | emptyObject {blank : List Char} : Blank blank →
    Value ('\x7b' :: (blank ++ ['\x7d'])) (.object [])
  | object {cs : List Char} {members : List (String × Json)} : Listed Member cs members →
    Value ('\x7b' :: (cs ++ ['\x7d'])) (.object members)

/-- A value between white space. -/
inductive Element : List Char → Json → Prop
  | between {before cs after : List Char} {j : Json} : Blank before → Value cs j → Blank after →
    Element (before ++ (cs ++ after)) j

/-- A name in quotes, a colon and a value. -/
inductive Member : List Char → String × Json → Prop
  | pair {before name after cs : List Char} {s : String} {j : Json} : Blank before → Text name s →
    Blank after → Element cs j → Member (before ++ (name ++ (after ++ ':' :: cs))) (s, j)

end

lemma blank_nil : Blank [] := by
  simp [Blank]

/-- A value without white space around it. -/
lemma Value.element {cs : List Char} {j : Json} (h : Value cs j) : Element cs j := by
  have between := Element.between blank_nil h blank_nil
  rwa [List.append_nil, List.nil_append] at between

/-- A member without white space. -/
lemma Text.member {name cs : List Char} {s : String} {j : Json} (named : Text name s)
    (h : Element cs j) : Member (name ++ ':' :: cs) (s, j) :=
  Member.pair blank_nil named blank_nil h

end Grammar

/-! ### Whole texts -/

/-- Whether a text stands for a JSON value: the value stands between white space. -/
def IsTextOf (cs : List Char) (j : Json) : Prop :=
  Grammar.Element cs j

mutual

/-- How deep arrays and objects are nested. -/
def nesting : Json → Nat
  | .array items => nestingItems items + 1
  | .object members => nestingMembers members + 1
  | _ => 0
termination_by structural j => j

/-- How deep the items of an array are nested. -/
def nestingItems : List Json → Nat
  | [] => 0
  | j :: rest => max (nesting j) (nestingItems rest)
termination_by structural items => items

/-- How deep the members of an object are nested. -/
def nestingMembers : List (String × Json) → Nat
  | [] => 0
  | (_, j) :: rest => max (nesting j) (nestingMembers rest)
termination_by structural members => members

end

/-- What is asked of a reader of JSON texts: each text whose value is nested at most so deep is read
as a value equal to the one that it stands for. The order of members does not count. -/
def Reads (read : List Char → Option Json) (depth : Nat) : Prop :=
  ∀ cs j, IsTextOf cs j → j.nesting ≤ depth → ∃ k, read cs = some k ∧ k.equals j = true

end ReadThrough.Json

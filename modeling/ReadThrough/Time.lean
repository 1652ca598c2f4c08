import ReadThrough.Number.Whole

/-!
Instants and durations, counted in nanoseconds.

Both are plain natural numbers; the clock starts at zero.

* `Instant.last`, `Duration.longest`: the greatest that can be represented.
* `Instant.after?`: the instant a duration later, if it can be represented.
* `Duration.milliseconds`: whole milliseconds, cut to a word as logs have them.
* `Duration.text`: a duration in its greatest fitting unit, as exact as needed.
-/

namespace ReadThrough

namespace Duration

/-- The nanoseconds of a second. -/
def second : Nat := 1000000000

/-- The nanoseconds of a millisecond. -/
def millisecond : Nat := 1000000

/-- The longest duration: the greatest word of seconds and all but one of the nanoseconds of
another second. -/
def longest : Nat := (Nat.pow 2 64 - 1) * second + 999999999

/-- A number of seconds. -/
def ofSeconds (n : Nat) : Nat := n * second

/-- The whole milliseconds of a duration, modulo the size of a word. -/
def milliseconds (d : Nat) : UInt64 :=
  UInt64.ofNat (d / millisecond)

/-- A whole number of units and a rest, as a decimal without trailing zeros. The rest is given in
`10 ^ -places` units. -/
def decimalText (whole rest places : Nat) : List Char :=
  let digits := natText rest
  let padded := List.replicate (places - digits.length) '0' ++ digits
  let fraction := (padded.reverse.dropWhile (· == '0')).reverse
  natText whole ++ if rest = 0 then [] else '.' :: fraction

/-- A duration in the greatest unit of which it holds at least one, from seconds down. -/
def text (d : Nat) : List Char :=
  if second ≤ d then decimalText (d / second) (d % second) 9 ++ ['s']
  else if millisecond ≤ d then decimalText (d / millisecond) (d % millisecond) 6 ++ ['m', 's']
  else if 1000 ≤ d then decimalText (d / 1000) (d % 1000) 3 ++ ['µ', 's']
  else decimalText d 0 0 ++ ['n', 's']

end Duration

namespace Instant

/-- The last instant that can be represented. -/
def last : Nat := (Nat.pow 2 63 - 1) * Duration.second + 999999999

/-- The instant a duration later, if it can be represented. -/
def after? (now : Nat) (d : Nat) : Option Nat :=
  if now + d ≤ last then some (now + d) else none

end Instant

end ReadThrough

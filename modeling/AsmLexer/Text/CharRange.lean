/-!
# Sets of characters as ranges

A character class of the Unicode standard is written down as its increasing, disjoint ranges of
code points. Membership walks the ranges in order and stops at the first that begins past the
character, so a character near the front, which is nearly every character of real source text, is
answered at once.
-/

set_option autoImplicit false

namespace AsmLexer

/-- A set of characters: increasing, disjoint ranges of code points, both ends included. -/
abbrev CharRanges := List (Nat × Nat)

/-- Whether a code point lies in one of the ranges. -/
def CharRanges.covers : CharRanges → Nat → Bool
  | [], _ => false
  | (low, high) :: rest, n =>
    if n < low then false else if n ≤ high then true else CharRanges.covers rest n

/-- Whether a character lies in one of the ranges. -/
def CharRanges.contains (ranges : CharRanges) (c : Char) : Bool :=
  ranges.covers c.toNat

end AsmLexer

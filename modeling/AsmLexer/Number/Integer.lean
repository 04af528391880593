import AsmLexer.Text.Blank
import AsmLexer.Text.Decimal

/-!
# Whole numbers as people write them

A whole number may have a sign, blanks around it, digits of any script, and single underscores
between its digits. The information separators, which are blank elsewhere, are not blank here. A
number of more than 4300 digits is neither read nor written.
-/

set_option autoImplicit false

namespace AsmLexer

/-- Whether a character may stand around a number. -/
def isNumberBlank (c : Char) : Bool :=
  isBlank c && !(0x1C ≤ c.toNat && c.toNat ≤ 0x1F)

/-- The most digits that are read or written. -/
def longestNumber : Nat := 4300

/-- The values of digits with single underscores between them. -/
def digitValues? : List Char → Option (List Nat)
  | [] => none
  | [c] => (decimalValue? c).map fun digit => [digit]
  | c :: '_' :: rest => do return (← decimalValue? c) :: (← digitValues? rest)
  | c :: rest => do return (← decimalValue? c) :: (← digitValues? rest)

/-- The whole number that a text means. -/
def integerOfText? (s : List Char) : Option Int := do
  let trimmed := ((s.dropWhile isNumberBlank).reverse.dropWhile isNumberBlank).reverse
  let (negative, digits) := match trimmed with
    | '-' :: rest => (true, rest)
    | '+' :: rest => (false, rest)
    | digits => (false, digits)
  let values ← digitValues? digits
  if longestNumber < values.length then none
  let n : Int := (values.foldl (fun n digit => n * 10 + digit) 0 : Nat)
  return if negative then -n else n

/-- A whole number in decimal digits, unless it has too many of them. -/
def decimal? (n : Int) : Option String :=
  if (toString n.natAbs).length ≤ longestNumber then some (toString n) else none

end AsmLexer

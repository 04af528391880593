/-!
# Fixed-width hexadecimal

A number in a given count of hexadecimal digits, most significant first. The case of the digits is
the caller's: escapes in quoted text are lower case, bytes named in a message are upper case. Read
are both.
-/

set_option autoImplicit false

namespace AsmLexer

/-- The two spellings of the hexadecimal digits above nine. -/
inductive HexCase where
  | lower
  | upper

/-- The digit for a value below sixteen. -/
def HexCase.digit (case : HexCase) (value : Nat) : Char :=
  if value < 10 then Char.ofNat ('0'.toNat + value)
  else match case with
  | .lower => Char.ofNat ('a'.toNat + (value - 10))
  | .upper => Char.ofNat ('A'.toNat + (value - 10))

/-- The last `width` hexadecimal digits of a number. -/
def HexCase.digits (case : HexCase) : Nat → Nat → List Char
  | 0, _ => []
  | width + 1, n => case.digits width (n / 16) ++ [case.digit (n % 16)]

/-- The value of a hexadecimal digit. -/
def hexValue? (c : Char) : Option Nat :=
  if '0' ≤ c ∧ c ≤ '9' then some (c.toNat - '0'.toNat)
  else if 'a' ≤ c ∧ c ≤ 'f' then some (c.toNat - 'a'.toNat + 10)
  else if 'A' ≤ c ∧ c ≤ 'F' then some (c.toNat - 'A'.toNat + 10)
  else none

end AsmLexer

import AsmLexer.Text.Blank
import AsmLexer.Text.Decimal
import AsmLexer.Text.Letter
import AsmLexer.Text.Utf8

/-!
# Classes of characters in assembler source

Which characters may end a number, continue a name, or stand in a number of a given base. Names
admit the letters and decimal digits of every script; numbers are ASCII only.
-/

set_option autoImplicit false

namespace AsmLexer

/-- Whether a character may directly follow a number and so ends it. -/
def isSeparator (c : Char) : Bool :=
  c = '(' || c = ')' || c = ':' || c = ',' || c = ';' || isBlank c

/-- Whether a character may continue a name. -/
def isNameChar (c : Char) : Bool :=
  isLetter c || isDecimal c || c = '_'

/-- Whether a character is an ASCII digit of the base. Every base above ten has the hexadecimal
digits, and a base below one has none. -/
def isDigitIn (base : Int) (c : Char) : Bool :=
  if base ≤ 10 then '0' ≤ c && (c.toNat : Int) < '0'.toNat + base
  else ('0' ≤ c && c ≤ '9') || ('a' ≤ c && c ≤ 'f') || ('A' ≤ c && c ≤ 'F')

/-- Whether a symbol is a character with the given property. A malformed byte has none. -/
def Symbol.satisfies (p : Char → Bool) : Symbol → Bool
  | .char c => p c
  | .malformed _ => false

end AsmLexer

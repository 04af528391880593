import AsmLexer.Text.Hex
import AsmLexer.Text.Printable

/-!
# Quoted text

Text is shown between single quotes, or between double quotes if it holds a single quote and no
double one. The delimiter in use and the backslash are escaped by a backslash, the tabulator and
the two line controls have letters of their own, and every other character that is not printable is
written as its code point in two, four or eight hexadecimal digits, the fewest that hold it. So the
quoted form is printable and on one line whatever the text is.
-/

set_option autoImplicit false

namespace AsmLexer

/-- The single quote, the usual delimiter. -/
def singleQuote : Char := '\x27'

/-- The double quote, the delimiter of a text that holds a single quote and no double one. -/
def doubleQuote : Char := '"'

/-- The delimiter that quotes a text. -/
def quoteDelimiter (s : List Char) : Char :=
  if s.contains singleQuote && !s.contains doubleQuote then doubleQuote else singleQuote

/-- How a character is written between two delimiters. -/
def escapeChar (delimiter c : Char) : List Char :=
  if c = delimiter ∨ c = '\\' then ['\\', c]
  else if c = '\t' then ['\\', 't']
  else if c = '\n' then ['\\', 'n']
  else if c = '\r' then ['\\', 'r']
  else if isPrintable c then [c]
  else if c.toNat < 0x100 then '\\' :: 'x' :: HexCase.lower.digits 2 c.toNat
  else if c.toNat < 0x10000 then '\\' :: 'u' :: HexCase.lower.digits 4 c.toNat
  else '\\' :: 'U' :: HexCase.lower.digits 8 c.toNat

/-- The quoted form of a text. -/
def quote (s : List Char) : List Char :=
  let delimiter := quoteDelimiter s
  delimiter :: s.flatMap (escapeChar delimiter) ++ [delimiter]

/-- The quoted form of a string. -/
def quoted (s : String) : String :=
  String.ofList (quote s.toList)

end AsmLexer

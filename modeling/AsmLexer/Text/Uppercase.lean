/-!
# Upper case of names

The names that the lexer looks up are all ASCII, so only the characters whose upper-case form is
ASCII matter. Besides the letters a to z these are the dotless i, the long and the sharp s, and
seven ligatures, some of which become two or three letters.
-/

set_option autoImplicit false

namespace AsmLexer

/-- The upper-case form of a character where that form is ASCII; every other character is kept,
since no name holds it in either case. -/
def upperForm (c : Char) : List Char :=
  if 'a' ≤ c ∧ c ≤ 'z' then [Char.ofNat (c.toNat - 32)]
  else match c.toNat with
  | 0xDF => ['S', 'S']
  | 0x131 => ['I']
  | 0x17F => ['S']
  | 0xFB00 => ['F', 'F']
  | 0xFB01 => ['F', 'I']
  | 0xFB02 => ['F', 'L']
  | 0xFB03 => ['F', 'F', 'I']
  | 0xFB04 => ['F', 'F', 'L']
  | 0xFB05 => ['S', 'T']
  | 0xFB06 => ['S', 'T']
  | _ => [c]

/-- A text in upper case, as far as its upper case is ASCII. -/
def upperCase (s : List Char) : List Char :=
  s.flatMap upperForm

end AsmLexer

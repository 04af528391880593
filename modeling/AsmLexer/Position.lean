import AsmLexer.Text.Utf8

/-!
# Positions

A position counts lines and columns from one and bytes from zero. A column is one symbol wide, so a
malformed byte takes a column of its own. Positions are plain numbers: any integers make a
position, and a scanner only ever reaches those that lie in its source.
-/

set_option autoImplicit false

namespace AsmLexer

/-- A place in a source. -/
structure Position where
  line : Int
  column : Int
  offset : Int
deriving DecidableEq

namespace Position

/-- The place before the first byte. -/
def origin : Position := ⟨1, 1, 0⟩

/-- The place after a character that takes `size` bytes: a newline begins a line, any other
character takes a column. -/
def advance (p : Position) (c : Char) (size : Int) : Position :=
  if c = '\n' then ⟨p.line + 1, 1, p.offset + size⟩
  else ⟨p.line, p.column + 1, p.offset + size⟩

/-- The place after a symbol. A malformed byte takes one column, whatever its value. -/
def after (p : Position) : Symbol → Position
  | .char c => p.advance c c.utf8Size
  | .malformed _ => ⟨p.line, p.column + 1, p.offset + 1⟩

/-- Line and column, with a colon between them. -/
def text (p : Position) : String :=
  toString p.line ++ ":" ++ toString p.column

end Position

end AsmLexer

import AsmLexer.Text.Blank
import AsmLexer.Text.Quoted
import AsmLexer.Text.Uppercase

/-!
# Kinds of token

Every kind has a name, by which people choose it in any case and with blanks around it, and a
display text, which is the character itself for the punctuation.
-/

set_option autoImplicit false

namespace AsmLexer

/-- What sort of thing a token is. -/
inductive Kind where
  | endOfFile
  | endOfLine
  | leftParen
  | rightParen
  | colon
  | comma
  | comment
  | space
  | immediate
  | identifier
  | directive
  | builtin
  | error
deriving DecidableEq

namespace Kind

/-- All kinds, in the order in which they are declared. -/
def all : List Kind :=
  [endOfFile, endOfLine, leftParen, rightParen, colon, comma, comment, space, immediate, identifier,
    directive, builtin, error]

/-- The name by which a kind is chosen. -/
def name : Kind → String
  | endOfFile => "EOF"
  | endOfLine => "EOL"
  | leftParen => "LPAREN"
  | rightParen => "RPAREN"
  | colon => "COLON"
  | comma => "COMMA"
  | comment => "COMMENT"
  | space => "SPACE"
  | immediate => "IMMEDIATE"
  | identifier => "IDENTIFIER"
  | directive => "DIRECTIVE"
  | builtin => "BUILTIN"
  | error => "ERROR"

/-- How a kind is shown in a listing. -/
def display : Kind → String
  | leftParen => "("
  | rightParen => ")"
  | colon => ":"
  | comma => ","
  | kind => kind.name

/-- The kind with this name, in any case and with any blanks around it. -/
def ofName? (s : String) : Option Kind :=
  all.find? fun kind => kind.name.toList == upperCase (trimBlank s.toList)

/-- What is said of a name that no kind has. -/
def unknownMessage (s : String) : String :=
  "unknown token kind: " ++ quoted s

end Kind

end AsmLexer

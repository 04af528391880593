import AsmLexer.Scanner.Pull
import AsmLexer.Text.Lines

/-!
# Diagnostics

A diagnostic shows an error with the line it is on and a mark below the place. It is five lines:
the message, the place, an empty line, the source line and the mark, the last three behind a gutter
that is as wide as the line number.

A source line outside the source is shown as empty, and a column before the second has no padding,
so a position need not be in the source.
-/

set_option autoImplicit false

namespace AsmLexer

/-- An error at a place in a source. -/
structure Diagnostic where
  message : String
  pos : Position
  source : List UInt8

namespace Diagnostic

/-- The diagnostic of an error token; a token of any other kind has none. -/
def ofToken? (t : Token) (source : List UInt8) : Option Diagnostic :=
  if t.kind = .error then some ⟨t.message, t.pos, source⟩ else none

/-- What is said when a diagnostic is asked for a token that is no error. -/
def notAnErrorMessage (kind : Kind) : String :=
  "not an error token: " ++ kind.display

/-- The lines of a source, as they are shown. -/
def shown (source : List UInt8) : List (List Char) :=
  linesOf (Utf8.decodeLossy source)

/-- The line with this number, counted from one, or an empty one. -/
def sourceLine (shown : List (List Char)) (line : Int) : List Char :=
  if 1 ≤ line then withoutReturns (shown[(line - 1).toNat]?.getD []) else []

/-- As many blanks as the number says, none for a negative one. -/
def blanks (count : Int) : List Char :=
  List.replicate count.toNat ' '

/-- The five lines of a diagnostic, with the name of the file the source is from. The lines of that
source are passed along. -/
def linesAmong (d : Diagnostic) (shown : List (List Char)) (fileName : String) :
    List (List Char) :=
  let number := (toString d.pos.line).toList
  let width : Int := number.length + 1
  let gutter := blanks width ++ ['|']
  [ "error: ".toList ++ d.message.toList,
    blanks width ++ "--> ".toList ++ fileName.toList ++ ':' :: number ++
      ':' :: (toString d.pos.column).toList,
    gutter,
    number ++ " | ".toList ++ sourceLine shown d.pos.line,
    gutter ++ ' ' :: blanks (d.pos.column - 1) ++ ['^'] ]

/-- The text of a diagnostic, where the lines of its source are passed along. -/
def formatAmong (d : Diagnostic) (shown : List (List Char)) (fileName : String) : String :=
  String.ofList (['\n'].intercalate (d.linesAmong shown fileName))

/-- The text of a diagnostic. -/
def format (d : Diagnostic) (fileName : String) : String :=
  d.formatAmong (shown d.source) fileName

/-- The name that stands for a source of which no file is known. -/
def anonymousFile : String := "input.s"

end Diagnostic

/-- Scans up to the first error token, which is handed out in place of the tokens before it. -/
def Scanner.drainStrict (sc : Scanner) : Except Token (List Token) :=
  match _h : sc.pull with
  | (token, sc') =>
    if _hkind : token.kind = .endOfFile then .ok [token]
    else if token.kind = .error then .error token
    else (token :: ·) <$> sc'.drainStrict
termination_by sc.remaining
decreasing_by
  have := @Scanner.remaining_pull_lt sc
  simp_all

/-- The tokens of a source without errors, or the diagnostic of its first error. -/
def tokenizeStrict (source : List UInt8) : Except Diagnostic (List Token) :=
  match (Scanner.ofSource source).drainStrict with
  | .ok tokens => .ok tokens
  | .error token => .error ⟨token.message, token.pos, source⟩

end AsmLexer

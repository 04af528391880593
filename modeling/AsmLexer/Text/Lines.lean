/-!
# Lines of a text

A newline ends a line, so there is one line more than there are newlines. A carriage return belongs
to its line; `withoutReturns` takes those at the end of a line away.
-/

set_option autoImplicit false

namespace AsmLexer

/-- The lines of a text, without their newlines. -/
def linesOf : List Char → List (List Char)
  | [] => [[]]
  | c :: rest =>
    if c = '\n' then [] :: linesOf rest
    else match linesOf rest with
    | [] => [[c]]
    | line :: others => (c :: line) :: others

/-- A line without the carriage returns at its end. -/
def withoutReturns (line : List Char) : List Char :=
  (line.reverse.dropWhile (· = '\r')).reverse

end AsmLexer

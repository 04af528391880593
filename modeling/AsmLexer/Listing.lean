import AsmLexer.Token

/-!
# Token listings

A listing has one line per token and may leave out some kinds. A dump shows every token.
-/

set_option autoImplicit false

namespace AsmLexer

/-- One line for each token whose kind is not skipped. -/
def listing (skip : List Kind) (tokens : List Token) : String :=
  String.join ((tokens.filter fun t => !skip.contains t.kind).map fun t => t.line ++ "\n")

/-- One line for each token. -/
def dump (tokens : List Token) : String :=
  String.join (tokens.map fun t => t.line ++ "\n")

end AsmLexer

import AsmLexer.Position
import AsmLexer.Token.Kind

/-!
# Tokens

A token is a kind, a position and the bytes it spans. An error token also carries a message, and
its position is where the failure was detected, which need not be where its bytes begin. `Fault`
lists the failures that scanning can detect, and `Fault.message` words them.
-/

set_option autoImplicit false

namespace AsmLexer

/-- A piece of the source. -/
structure Token where
  kind : Kind
  pos : Position
  raw : List UInt8
  message : String := ""
deriving DecidableEq

/-- The text of a token, with replacement characters for what is malformed. -/
def Token.text (t : Token) : String :=
  String.ofList (Utf8.decodeLossy t.raw)

/-- One line about a token: its position, its kind, and its quoted text or its message. -/
def Token.line (t : Token) : String :=
  t.pos.text ++ ": " ++ t.kind.display ++ " " ++
    if t.kind = .error then t.message else quoted t.text

/-- What is wrong at an error token. -/
inductive Fault where
  /-- No token begins with this character. -/
  | illegalSymbol (c : Char)
  /-- This character cannot follow the leading zero of an immediate value. -/
  | illegalAfterZero (c : Char)
  /-- This character is no digit of the base and does not end the value either. -/
  | illegalDigit (c : Char) (base : Nat)
  /-- The value has a base marker and no digits. -/
  | malformedImmediate (literal : String)
  /-- This byte begins no well-formed character. -/
  | invalidByte (byte : UInt8)
deriving DecidableEq

/-- What is said of a byte at which no well-formed character begins. -/
def invalidByteMessage (byte : UInt8) : String :=
  "invalid UTF-8 byte \\x" ++ String.ofList (HexCase.upper.digits 2 byte.toNat)

/-- What is said of a fault. -/
def Fault.message : Fault → String
  | .illegalSymbol c => "illegal symbol " ++ quoted (String.singleton c)
  | .illegalAfterZero c => "illegal symbol " ++ quoted (String.singleton c) ++ " in immediate value"
  | .illegalDigit c base =>
    "illegal symbol " ++ quoted (String.singleton c) ++ " in base " ++ toString base ++
      " immediate value"
  | .malformedImmediate literal => "malformed immediate value \"" ++ literal ++ "\""
  | .invalidByte byte => invalidByteMessage byte

end AsmLexer

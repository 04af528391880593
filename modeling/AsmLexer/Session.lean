import AsmLexer.Scanner.Pull

/-!
# Sessions

A session hands out the tokens of one source to whoever asks. Once the token that ends the source
was handed out, it is handed out again, and once the session is closed, no token is. Any number of
iterators can share a session; each ends after it gave the token that ends the source.

A caller may also read symbols by hand and put the last one back. Reading and scanning share the
scanner, so what was put back is read again by the next scan. Only one reading can be put back.
-/

set_option autoImplicit false

namespace AsmLexer

/-- Why an operation on a session fails. -/
inductive SessionError where
  | closed
  | nothingToUndo
  | invalidByte (byte : UInt8)
deriving DecidableEq

/-- What is said of a failed operation. -/
def SessionError.message : SessionError → String
  | .closed => "scan() called on a closed scanner"
  | .nothingToUndo => "undo without an intervening read"
  | .invalidByte byte => invalidByteMessage byte

/-- A scanner that is handed around. -/
structure Session where
  scanner : Scanner
  /-- The token that ends the source, once it was handed out. -/
  ended : Option Token
  closed : Bool

namespace Session

/-- A session at the beginning of a source. -/
def ofSource (source : List UInt8) : Session :=
  ⟨.ofSource source, none, false⟩

/-- The next token. -/
def scan (s : Session) : Except SessionError Token × Session :=
  if s.closed then (.error .closed, s)
  else match s.ended with
  | some token => (.ok token, s)
  | none =>
    let (token, scanner) := s.scanner.pull
    (.ok token, { s with scanner, ended := if token.kind = .endOfFile then some token else none })

/-- Ends the session: from here on no token is handed out. -/
def close (s : Session) : Session :=
  { s with closed := true }

/-- Reads one character by hand. There is none at the end of the source, and a malformed byte is
read and refused. -/
def read (s : Session) : Except SessionError (Option Char) × Session :=
  let (symbol, scanner) := s.scanner.read
  let result := match symbol with
    | none => .ok none
    | some (.char c) => .ok (some c)
    | some (.malformed byte) => .error (.invalidByte byte)
  (result, { s with scanner })

/-- Puts back what was read last. -/
def unread (s : Session) : Except SessionError Unit × Session :=
  if s.scanner.checkpoint.isSome then (.ok (), { s with scanner := s.scanner.undo })
  else (.error .nothingToUndo, s)

/-- A consumer of a session that takes its tokens one by one. -/
inductive Iterator where
  | live
  | finished
deriving DecidableEq

/-- The next token of an iterator, or `none` if it has ended. It ends after the token that ends the
source, and also when it fails. -/
def Iterator.next (it : Iterator) (s : Session) :
    Except SessionError (Option Token) × Iterator × Session :=
  match it with
  | .finished => (.ok none, .finished, s)
  | .live =>
    match s.scan with
    | (.error e, s) => (.error e, .finished, s)
    | (.ok token, s) =>
      (.ok (some token), if token.kind = .endOfFile then .finished else .live, s)

end Session

end AsmLexer

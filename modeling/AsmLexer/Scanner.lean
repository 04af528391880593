import AsmLexer.CharClass
import AsmLexer.Token

/-!
# The scanner

A scanner holds two places in its source: where the current token starts and where the next symbol
is read. It decides one token at a time by a small state machine. A state reads for as long as its
class of symbols goes on, puts back the one symbol that ended the run if it is not part of the
token, and then either hands over to another state or emits a token.

A fault never stops the scanner. It becomes one error token, and the rest of its line is dropped
before the next token is decided, which is the newline or the end of the source.

What a state does is `Scanner.step`; running the states up to a token, and up to the end of the
source, is in `AsmLexer.Scanner.Pull`.
-/

set_option autoImplicit false

namespace AsmLexer

/-- A place in a source together with the symbols from there on. -/
structure Cursor where
  pos : Position
  rest : List Symbol

namespace Cursor

/-- The place before the first byte of a source. -/
def start (source : List UInt8) : Cursor :=
  ⟨.origin, Utf8.symbols source⟩

/-- The first place, here or later, whose symbol is not to be skipped, or else the end. -/
def skipWhile (skip : Symbol → Bool) : Position → List Symbol → Cursor
  | pos, [] => ⟨pos, []⟩
  | pos, symbol :: rest =>
    if skip symbol then skipWhile skip (pos.after symbol) rest else ⟨pos, symbol :: rest⟩

/-- The symbols that lie between two offsets, of those that begin at the first. -/
def between (first last : Int) : List Symbol → List Symbol
  | [] => []
  | symbol :: rest =>
    if first < last then symbol :: between (first + symbol.size) last rest else []

/-- The symbols from this place up to a later one; there are none up to an earlier one. -/
def upTo (c later : Cursor) : List Symbol :=
  between c.pos.offset later.pos.offset c.rest

end Cursor

/-- A scanner between two reads. -/
structure Scanner where
  /-- Where the current token starts. -/
  start : Cursor
  /-- Where the next symbol is read. -/
  next : Cursor
  /-- Where the last symbol was read, if that reading may still be undone. -/
  checkpoint : Option Cursor
  /-- Whether an error was emitted and the rest of its line is still to be dropped. -/
  recovering : Bool

/-- What the scanner is in the middle of. -/
inductive State where
  | any
  | space
  | comment
  | afterZero
  | digits (base : Nat)
  | word (kind : Kind)
  | skipLine
deriving DecidableEq

/-- How a state ends: it hands over, or it emits a token. -/
inductive Step where
  | goto (state : State) (scanner : Scanner)
  | emit (token : Token) (scanner : Scanner)

/-- The kind of a character that is a token by itself. -/
def punctuation? : Char → Option Kind
  | '\n' => some .endOfLine
  | '(' => some .leftParen
  | ')' => some .rightParen
  | ':' => some .colon
  | ',' => some .comma
  | _ => none

/-- The state in which a token goes on that begins with this character. -/
def opening? (c : Char) : Option State :=
  if c = ';' then some .comment
  else if c = '.' then some (.word .directive)
  else if c = '%' then some (.word .builtin)
  else if isBlank c then some .space
  else if c = '0' then some .afterZero
  else if '1' ≤ c ∧ c ≤ '9' then some (.digits 10)
  else if isLetter c ∨ c = '_' then some (.word .identifier)
  else none

/-- Whether a symbol is any but the newline. -/
def Symbol.staysOnLine (s : Symbol) : Bool :=
  s != .char '\n'

namespace Scanner

/-- A scanner at the beginning of a source. -/
def ofSource (source : List UInt8) : Scanner :=
  ⟨.start source, .start source, none, false⟩

/-- Where the last symbol was read; after an undo, where the next one is. -/
def prev (sc : Scanner) : Cursor :=
  sc.checkpoint.getD sc.next

/-- Reads one symbol, if there is one left. That there is none counts as a reading too. -/
def read (sc : Scanner) : Option Symbol × Scanner :=
  match sc.next.rest with
  | [] => (none, { sc with checkpoint := some sc.next })
  | symbol :: rest =>
    (some symbol, { sc with next := ⟨sc.next.pos.after symbol, rest⟩, checkpoint := some sc.next })

/-- Puts back what was read last. -/
def undo (sc : Scanner) : Scanner :=
  { sc with next := sc.prev, checkpoint := none }

/-- Reads for as long as symbols are to be kept, and then one symbol more. -/
def readWhile (keep : Symbol → Bool) (sc : Scanner) : Option Symbol × Scanner :=
  read { sc with next := Cursor.skipWhile keep sc.next.pos sc.next.rest }

/-- The bytes of the current token so far. -/
def raw (sc : Scanner) : List UInt8 :=
  (sc.start.upTo sc.next).flatMap Symbol.bytes

/-- Ends the current token here. -/
def emit (kind : Kind) (sc : Scanner) : Step :=
  .emit ⟨kind, sc.start.pos, sc.raw, ""⟩ { sc with start := sc.next, recovering := false }

/-- Ends the current token here as an error at the given place. -/
def failAt (pos : Position) (fault : Fault) (sc : Scanner) : Step :=
  .emit ⟨.error, pos, sc.raw, fault.message⟩ { sc with start := sc.next, recovering := true }

/-- Ends the current token here as an error at the symbol that was read last. -/
def fail (fault : Fault) (sc : Scanner) : Step :=
  sc.failAt sc.prev.pos fault

/-- Ends an immediate value: a base marker needs a digit after it. -/
def emitImmediate (base : Nat) (sc : Scanner) : Step :=
  if base = 8 ∨ base = 10 ∨ 2 < sc.raw.length then sc.emit .immediate
  else sc.failAt sc.start.pos (.malformedImmediate (String.ofList (Utf8.decodeLossy sc.raw)))

/-- At the start of a token, its first symbol decides. -/
def stepAny (sc : Scanner) : Step :=
  match sc.read with
  | (none, sc) => sc.emit .endOfFile
  | (some (.malformed byte), sc) => sc.fail (.invalidByte byte)
  | (some (.char c), sc) =>
    match punctuation? c, opening? c with
    | some kind, _ => sc.emit kind
    | none, some state => .goto state sc
    | none, none => sc.fail (.illegalSymbol c)

/-- White space goes on up to a newline or the first symbol that is not blank. -/
def stepSpace (sc : Scanner) : Step :=
  match sc.readWhile (Symbol.satisfies fun c => c != '\n' && isBlank c) with
  | (none, sc) => sc.emit .space
  | (some _, sc) => sc.undo.emit .space

/-- A comment takes the rest of its line, well-formed or not. -/
def stepComment (sc : Scanner) : Step :=
  match sc.readWhile Symbol.staysOnLine with
  | (none, sc) => sc.emit .comment
  | (some _, sc) => sc.undo.emit .comment

/-- After a leading zero comes a base marker, an octal digit, or the end of the value. An octal
value looks at its first digit itself. -/
def stepAfterZero (sc : Scanner) : Step :=
  match sc.read with
  | (none, sc) => sc.emit .immediate
  | (some (.malformed byte), sc) => sc.fail (.invalidByte byte)
  | (some (.char c), sc) =>
    if c = 'b' ∨ c = 'B' then .goto (.digits 2) sc
    else if c = 'x' ∨ c = 'X' then .goto (.digits 16) sc
    else if isSeparator c then sc.undo.emit .immediate
    else if '0' ≤ c ∧ c ≤ '9' then .goto (.digits 8) sc.undo
    else sc.fail (.illegalAfterZero c)

/-- Digits go on up to a separator or the end; anything else is a fault. -/
def stepDigits (base : Nat) (sc : Scanner) : Step :=
  match sc.readWhile (Symbol.satisfies (isDigitIn base)) with
  | (none, sc) => sc.emitImmediate base
  | (some (.malformed byte), sc) => sc.fail (.invalidByte byte)
  | (some (.char c), sc) =>
    if isSeparator c then sc.undo.emitImmediate base else sc.fail (.illegalDigit c base)

/-- A name ends before the first character that cannot continue it. -/
def stepWord (kind : Kind) (sc : Scanner) : Step :=
  match sc.readWhile (Symbol.satisfies isNameChar) with
  | (none, sc) => sc.emit kind
  | (some (.malformed byte), sc) => sc.fail (.invalidByte byte)
  | (some (.char _), sc) => sc.undo.emit kind

/-- After an error the rest of the line belongs to no token. -/
def stepSkipLine (sc : Scanner) : Step :=
  match sc.readWhile Symbol.staysOnLine with
  | (none, sc) => { sc with start := sc.next }.emit .endOfFile
  | (some _, sc) => .goto .any { sc.undo with start := sc.undo.next }

/-- What a state does. -/
def step (state : State) (sc : Scanner) : Step :=
  match state with
  | .any => sc.stepAny
  | .space => sc.stepSpace
  | .comment => sc.stepComment
  | .afterZero => sc.stepAfterZero
  | .digits base => sc.stepDigits base
  | .word kind => sc.stepWord kind
  | .skipLine => sc.stepSkipLine

end Scanner

end AsmLexer

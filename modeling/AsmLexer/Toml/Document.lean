import AsmLexer.Toml.Scalar

/-!
# Configuration documents

A document is a sequence of statements, one to a line: a key with its value, the header of a table,
or the header of one more table of a list. `Toml.parse` reads a document into a table.

Nothing may be said twice. `Ledger` holds which tables are closed: one written in place, inside a
value, is closed for good, with all below it; one with a header, or one that a key with points
passed through, gets no second header and is not passed through by another key with points. What a
key with points passed through is closed in this way only from the next header on.
-/

set_option autoImplicit false

namespace AsmLexer.Toml

/-- The blanks, newlines and comments in front of an item of a list. The bound is on the number of
comments, of which each takes a character. -/
def skipFiller? : Nat → List Char → Option (List Char)
  | 0, _ => none
  | bound + 1, input =>
    match input.dropWhile isBlankOrNewline with
    | '#' :: rest =>
      let comment := rest.takeWhile (· != '\n')
      if comment.any isControl then none else skipFiller? bound (rest.drop comment.length)
    | rest => some rest

/-- Adds a key to a table written in place. What earlier entries of the same table hold may not be
extended. -/
def extendInPlace? (closed : List (List String)) (entries : Table) (key : List String)
    (value : Value) : Option Table :=
  if closed.any fun path => path.isPrefixOf key then none
  else entries.modifyAt false key.dropLast fun inner => do
    let stem ← key.getLast?
    if (inner.get? stem).isSome then none else some (inner.put stem value)

mutual

/-- A value, from its first character on. There is room for some levels of nesting. The bound is on
the depth and the number of values together, of which each takes a character. -/
def value (room : Nat) : Nat → List Char → Except Fault (Value × List Char)
  | 0, _ => .error .malformed
  | bound + 1, input =>
    match input with
    | [] => .error .malformed
    | '[' :: rest =>
      if room < 2 then .error .tooDeep
      else do
        match ← orMalformed (skipFiller? (rest.length + 1) rest) with
        | ']' :: rest => return (.array [], rest)
        | rest =>
          let (items, rest) ← items (room - 2) bound rest
          return (.array items, rest)
    | '\x7b' :: rest =>
      if room < 3 then .error .tooDeep
      else match rest.dropWhile isInlineBlank with
      | '\x7d' :: rest => .ok (.table [], rest)
      | rest => do
        let (entries, rest) ← entries (room - 3) bound [] [] rest
        return (.table entries, rest)
    | c :: _ =>
      if c = '"' ∨ c = literalQuote then do
        let (s, rest) ← orMalformed (text? input)
        return (.text s, rest)
      else scalar input

/-- The items of a list that is not empty, and its closing bracket. A comma may stand after the
last item. -/
def items (room : Nat) : Nat → List Char → Except Fault (List Value × List Char)
  | 0, _ => .error .malformed
  | bound + 1, input => do
    let (first, rest) ← value room bound input
    match ← orMalformed (skipFiller? (rest.length + 1) rest) with
    | ']' :: rest => return ([first], rest)
    | ',' :: rest =>
      match ← orMalformed (skipFiller? (rest.length + 1) rest) with
      | ']' :: rest => return ([first], rest)
      | rest =>
        let (others, rest) ← items room bound rest
        return (first :: others, rest)
    | _ => .error .malformed

/-- The entries of a table in place that is not empty, and its closing brace. -/
def entries (room : Nat) :
    Nat → List (List String) → Table → List Char → Except Fault (Table × List Char)
  | 0, _, _, _ => .error .malformed
  | bound + 1, closed, soFar, input => do
    let (key, rest) ← orMalformed (key? input)
    let (_, rest) ← orMalformed (mark? '=' rest)
    let (given, rest) ← value room bound (rest.dropWhile isInlineBlank)
    let soFar ← orMalformed (extendInPlace? closed soFar key given)
    match rest.dropWhile isInlineBlank with
    | '\x7d' :: rest => return (soFar, rest)
    | ',' :: rest =>
      let closed := if given.isContainer then key :: closed else closed
      entries room bound closed soFar (rest.dropWhile isInlineBlank)
    | _ => .error .malformed

end

/-- Which tables of a document are closed. -/
structure Ledger where
  /-- Closed for good, with all below. -/
  sealed : List (List String)
  /-- Has had its header. -/
  headed : List (List String)
  /-- Counts as headed from the next header on. -/
  passed : List (List String)

namespace Ledger

/-- Whether a table, or one above it, is closed for good. -/
def isSealed (l : Ledger) (path : List String) : Bool :=
  l.sealed.any fun other => other.isPrefixOf path

/-- Whether a table gets no header any more. -/
def isHeaded (l : Ledger) (path : List String) : Bool :=
  l.headed.contains path

/-- A header begins: what was passed through counts as headed. -/
def settle (l : Ledger) : Ledger :=
  { l with headed := l.passed ++ l.headed, passed := [] }

/-- A list got a new table: what was known below its path was about the table before. -/
def forget (l : Ledger) (path : List String) : Ledger :=
  { l with
    sealed := l.sealed.filter fun other => !path.isPrefixOf other
    headed := l.headed.filter fun other => !path.isPrefixOf other }

end Ledger

/-- A document that is read up to some statement. -/
structure Draft where
  root : Table
  /-- The path of the last header. -/
  header : List String
  ledger : Ledger

namespace Draft

/-- A document without statements. -/
def empty : Draft :=
  ⟨[], [], ⟨[], [], []⟩⟩

/-- Takes the header of a table. -/
def openTable? (d : Draft) (key : List String) : Option Draft := do
  let ledger := d.ledger.settle
  if ledger.isHeaded key || ledger.isSealed key then none
  let root ← d.root.modifyAt true key some
  return ⟨root, key, { ledger with headed := key :: ledger.headed }⟩

/-- Takes the header of one more table of a list. -/
def openItem? (d : Draft) (key : List String) : Option Draft := do
  let ledger := d.ledger.settle
  if ledger.isSealed key then none
  let ledger := ledger.forget key
  let root ← d.root.modifyAt true key.dropLast fun inner => do
    let stem ← key.getLast?
    match inner.get? stem with
    | none => some (inner.put stem (.array [.table []]))
    | some (.array items) => some (inner.put stem (.array (items ++ [.table []])))
    | some _ => none
  return ⟨root, key, { ledger with headed := key :: ledger.headed }⟩

/-- The tables that a key with points passes through. -/
def passedThrough (d : Draft) (key : List String) : List (List String) :=
  (List.range (key.length - 1)).map fun count => d.header ++ key.take (count + 1)

/-- Takes a key and its value, under the last header. -/
def assign? (d : Draft) (key : List String) (value : Value) : Option Draft := do
  let passed := d.passedThrough key
  if passed.any d.ledger.isHeaded then none
  let parent := d.header ++ key.dropLast
  if d.ledger.isSealed parent then none
  let root ← d.root.modifyAt true parent fun inner => do
    let stem ← key.getLast?
    if (inner.get? stem).isSome then none else some (inner.put stem value)
  let ledger := { d.ledger with
    passed := passed ++ d.ledger.passed
    sealed := if value.isContainer then (d.header ++ key) :: d.ledger.sealed else d.ledger.sealed }
  return { d with root, ledger }

/-- Takes the header of one more table of a list, from behind its brackets on. -/
def itemHeader? (d : Draft) (input : List Char) : Option (Draft × List Char) := do
  let (key, rest) ← key? (input.dropWhile isInlineBlank)
  let d ← d.openItem? key
  let (_, rest) ← mark? ']' rest
  let (_, rest) ← mark? ']' rest
  return (d, rest)

/-- Takes the header of a table, from behind its bracket on. -/
def tableHeader? (d : Draft) (input : List Char) : Option (Draft × List Char) := do
  let (key, rest) ← key? (input.dropWhile isInlineBlank)
  let d ← d.openTable? key
  let (_, rest) ← mark? ']' rest
  return (d, rest)

/-- Takes a key with its value, from its first character on. -/
def assignment (d : Draft) (input : List Char) : Except Fault (Draft × List Char) := do
  let (key, rest) ← orMalformed (key? input)
  let (_, rest) ← orMalformed (mark? '=' rest)
  let rest := rest.dropWhile isInlineBlank
  let (given, rest) ← value deepestRead (rest.length + 1) rest
  return (← orMalformed (d.assign? key given), rest)

/-- Takes one statement, from its first character on. -/
def statement (d : Draft) (input : List Char) : Except Fault (Draft × List Char) :=
  match input with
  | '[' :: '[' :: rest => orMalformed (d.itemHeader? rest)
  | '[' :: rest => orMalformed (d.tableHeader? rest)
  | _ => d.assignment input

/-- The end of a line: blanks, perhaps a comment, and the newline unless the document ends. -/
def lineEnd? (input : List Char) : Option (List Char) :=
  let rest := input.dropWhile isInlineBlank
  let comment := match rest with
    | '#' :: _ => rest.takeWhile (· != '\n')
    | _ => []
  if comment.any isControl then none
  else match rest.drop comment.length with
  | [] => some []
  | '\n' :: rest => some rest
  | _ => none

/-- Takes all statements. The bound is on the number of lines, of which each takes a character. -/
def lines : Nat → Draft → List Char → Except Fault Draft
  | 0, _, _ => .error .malformed
  | bound + 1, d, input =>
    match input.dropWhile isInlineBlank with
    | [] => .ok d
    | '\n' :: rest => lines bound d rest
    | '#' :: rest => do lines bound d (← orMalformed (lineEnd? ('#' :: rest)))
    | rest => do
      let (d, rest) ← d.statement rest
      lines bound d (← orMalformed (lineEnd? rest))

end Draft

/-- A text in which a newline is always a single character. -/
def singleNewlines : List Char → List Char
  | '\r' :: '\n' :: rest => '\n' :: singleNewlines rest
  | c :: rest => c :: singleNewlines rest
  | [] => []

/-- Reads a configuration document. -/
def parse (document : List Char) : Except Fault Table := do
  let input := singleNewlines document
  return (← Draft.lines (input.length + 1) .empty input).root

end AsmLexer.Toml

import AsmLexer.Text.Hex

/-!
# Quoted text in a configuration document

Text stands between single quotes, where every character is itself, or between double quotes, where
a backslash begins an escape. Three quotes begin text over several lines. Each reader takes the
characters after the opening quotes and gives the text and what follows it, or `none` where the
document is not well-formed.
-/

set_option autoImplicit false

namespace AsmLexer.Toml

/-- The single quote. -/
def literalQuote : Char := '\x27'

/-- Whether a character is a blank within a line. -/
def isInlineBlank (c : Char) : Bool :=
  c = ' ' || c = '\t'

/-- Whether a character is a blank within a line or a newline. -/
def isBlankOrNewline (c : Char) : Bool :=
  isInlineBlank c || c = '\n'

/-- Whether a character is a control other than the tabulator, which no text and no comment holds.
-/
def isControl (c : Char) : Bool :=
  (c.toNat < 0x20 && c != '\t') || c.toNat = 0x7F

/-- Whether a character may not stand in text, which holds newlines only over several lines. -/
def isForbidden (multiline : Bool) (c : Char) : Bool :=
  isControl c && !(multiline && c = '\n')

/-- A character as its code point in `width` hexadecimal digits. -/
def hexChar? (width : Nat) (input : List Char) : Option (Char × List Char) := do
  let digits := input.take width
  if digits.length ≠ width then none
  let values ← digits.mapM hexValue?
  let codePoint := values.foldl (fun n digit => n * 16 + digit) 0
  if codePoint.isValidChar then some (Char.ofNat codePoint, input.drop width) else none

/-- What a backslash stands for, together with the characters after it. Over several lines a
backslash at the end of a line takes away that end and all blanks after it. -/
def escape? (multiline : Bool) (input : List Char) : Option (List Char × List Char) :=
  match input with
  | 'b' :: rest => some (['\x08'], rest)
  | 't' :: rest => some (['\t'], rest)
  | 'n' :: rest => some (['\n'], rest)
  | 'f' :: rest => some (['\x0c'], rest)
  | 'r' :: rest => some (['\r'], rest)
  | '"' :: rest => some (['"'], rest)
  | '\\' :: rest => some (['\\'], rest)
  | 'u' :: rest => (hexChar? 4 rest).map fun (c, rest) => ([c], rest)
  | 'U' :: rest => (hexChar? 8 rest).map fun (c, rest) => ([c], rest)
  | c :: _ =>
    if multiline && isBlankOrNewline c then
      match input.dropWhile isInlineBlank with
      | [] => some ([], [])
      | '\n' :: rest => some ([], rest.dropWhile isBlankOrNewline)
      | _ => none
    else none
  | [] => none

/-- Text up to the closing double quotes. The bound is on the number of pieces, of which each takes
a character. -/
def basicBody? (multiline : Bool) : Nat → List Char → Option (List Char × List Char)
  | 0, _ => none
  | bound + 1, input =>
    match input with
    | [] => none
    | '"' :: rest =>
      if !multiline then some ([], rest)
      else match rest with
      | '"' :: '"' :: rest => some ([], rest)
      | _ => (basicBody? multiline bound rest).map fun (s, rest) => ('"' :: s, rest)
    | '\\' :: rest => do
      let (s, rest) ← escape? multiline rest
      let (more, rest) ← basicBody? multiline bound rest
      return (s ++ more, rest)
    | c :: rest =>
      if isForbidden multiline c then none
      else (basicBody? multiline bound rest).map fun (s, rest) => (c :: s, rest)

/-- Text up to the closing single quotes. -/
def literalBody? (multiline : Bool) : List Char → Option (List Char × List Char)
  | [] => none
  | c :: rest =>
    if c = literalQuote ∧ (!multiline ∨ rest.take 2 = [literalQuote, literalQuote]) then
      some ([], if multiline then rest.drop 2 else rest)
    else if isForbidden multiline c then none
    else (literalBody? multiline rest).map fun (s, rest) => (c :: s, rest)

/-- Up to two quotes directly after the closing three belong to the text. -/
def extraQuotes (quote : Char) : List Char × List Char → List Char × List Char
  | (s, input) =>
    let extra := (input.take 2).takeWhile (· = quote)
    (s ++ extra, input.drop extra.length)

/-- A newline directly after the three opening quotes does not belong to the text. -/
def withoutFirstNewline : List Char → List Char
  | '\n' :: rest => rest
  | input => input

/-- Text on one line, from its opening quote on. -/
def lineText? : List Char → Option (String × List Char)
  | [] => none
  | c :: rest =>
    let body := if c = '"' then basicBody? false (rest.length + 1) rest
      else if c = literalQuote then literalBody? false rest
      else none
    body.map fun (s, rest) => (String.ofList s, rest)

/-- Text on one line or over several, from its opening quotes on. -/
def text? (input : List Char) : Option (String × List Char) :=
  match input with
  | c :: c' :: c'' :: rest =>
    if c = c' ∧ c = c'' ∧ (c = '"' ∨ c = literalQuote) then
      let rest := withoutFirstNewline rest
      let body := if c = '"' then basicBody? true (rest.length + 1) rest else literalBody? true rest
      body.map fun result =>
        let (s, rest) := extraQuotes c result
        (String.ofList s, rest)
    else lineText? input
  | _ => lineText? input

/-- Whether a character may stand in a key without quotes. -/
def isKeyChar (c : Char) : Bool :=
  c.isAlphanum || c = '-' || c = '_'

/-- One part of a key, with or without quotes. -/
def keyPart? (input : List Char) : Option (String × List Char) :=
  match input.takeWhile isKeyChar with
  | [] => lineText? input
  | part => some (String.ofList part, input.drop part.length)

/-- A key: parts with points between them, and the blanks around these and after the key. The bound
is on the number of parts, of which each takes a character. -/
def keyParts? : Nat → List Char → Option (List String × List Char)
  | 0, _ => none
  | bound + 1, input => do
    let (part, rest) ← keyPart? input
    match rest.dropWhile isInlineBlank with
    | '.' :: rest =>
      let (parts, rest) ← keyParts? bound (rest.dropWhile isInlineBlank)
      return (part :: parts, rest)
    | rest => return ([part], rest)

/-- A key, from its first character on. -/
def key? (input : List Char) : Option (List String × List Char) :=
  keyParts? (input.length + 1) input

end AsmLexer.Toml

import AsmLexer.Number.Integer
import AsmLexer.Text.Quoted

/-!
# Command-line arguments

The arguments name an input and may hold flags in any order. A long flag may be shortened as far as
it stays the only one, and its value may be joined to it by an equals sign; the value of a short
flag may follow it directly. A joined value that is just two dashes is dropped, and its flag then
stands without one. After two dashes every argument is plain, and so is one that looks like a
negative number or holds a space, unless it begins a flag.

Reading goes in two passes. The first sorts the arguments into words and refuses a shortened flag
that fits several; the second gives the flags their values, from the left, and stops at the first
error or at a call for help. What is missing or left over is seen last.
-/

set_option autoImplicit false

namespace AsmLexer

/-- What a command line says about the error limit. -/
inductive LimitArgument where
  | absent
  /-- The flag is there, and its value was dropped. -/
  | blank
  | number (n : Int)
deriving DecidableEq

/-- What a command line asks for. -/
structure Arguments where
  input : String
  output : Option String := none
  config : Option String := none
  /-- The names of kinds to leave out; a name that was dropped is `none`. -/
  skip : List (Option String) := []
  limit : LimitArgument := .absent
  check : Bool := false
  debug : Bool := false
deriving DecidableEq

/-- The flags. -/
inductive Flag where
  | help
  | output
  | config
  | skip
  | limit
  | check
  | debug
deriving DecidableEq

namespace Flag

/-- All spellings of the flags, in the order in which they are listed. -/
def spellings : List (String × Flag) :=
  [("-h", help), ("--help", help), ("-o", output), ("--output", output), ("--config", config),
    ("--skip", skip), ("--max-errors", limit), ("--check", check), ("--debug", debug)]

/-- The flag with this exact spelling. -/
def ofSpelling? (s : List Char) : Option Flag :=
  (spellings.find? fun spelling => spelling.1.toList == s).map (·.2)

/-- Whether a flag takes a value. -/
def takesValue : Flag → Bool
  | help | check | debug => false
  | output | config | skip | limit => true

/-- All spellings of a flag, with slashes between them. -/
def name (flag : Flag) : String :=
  "/".intercalate ((spellings.filter fun spelling => spelling.2 = flag).map (·.1))

end Flag

/-- Why a command line is refused. -/
inductive UsageError where
  | missingInput
  | unrecognized (arguments : List String)
  | ambiguous (argument : String) (candidates : List String)
  | missingValue (flag : Flag)
  | ignoredValue (flag : Flag) (value : String)
  | invalidInteger (flag : Flag) (value : String)
deriving DecidableEq

/-- What is said of a refused command line. -/
def UsageError.message : UsageError → String
  | .missingInput => "the following arguments are required: input"
  | .unrecognized arguments => "unrecognized arguments: " ++ " ".intercalate arguments
  | .ambiguous argument candidates =>
    "ambiguous option: " ++ argument ++ " could match " ++ ", ".intercalate candidates
  | .missingValue flag => "argument " ++ flag.name ++ ": expected one argument"
  | .ignoredValue flag value =>
    "argument " ++ flag.name ++ ": ignored explicit argument " ++ quoted value
  | .invalidInteger flag value =>
    "argument " ++ flag.name ++ ": invalid int value: " ++ quoted value

/-- Why a command line gives no arguments: help was asked for, or it is refused. -/
inductive Refusal where
  | help
  | usage (error : UsageError)
deriving DecidableEq

namespace CommandLine

/-- A value that is part of the argument of its flag. -/
inductive Attached where
  | nothing
  /-- Behind a short flag, directly or after an equals sign. -/
  | joined (value : List Char)
  /-- Behind a long flag and an equals sign. -/
  | assigned (value : List Char)

/-- What an argument is, by itself. -/
inductive Word where
  | plain (s : String)
  | flag (flag : Flag) (attached : Attached)
  /-- It begins like a flag and is none. -/
  | unknown (s : String)
  /-- The two dashes after which all is plain. -/
  | dashes

/-- The text before the first equals sign and, if there is one, the text after it. -/
def splitAssignment (s : List Char) : List Char × Option (List Char) :=
  let front := s.takeWhile (· != '=')
  (front, if front.length < s.length then some (s.drop (front.length + 1)) else none)

/-- A value behind a long flag and an equals sign, if there is one. -/
def attachedOf : Option (List Char) → Attached
  | none => .nothing
  | some value => .assigned value

/-- Whether a flag is written with two dashes. -/
def isLong : List Char → Bool
  | '-' :: '-' :: _ => true
  | _ => false

/-- Whether a text is a dash and a decimal number, perhaps with a newline at the end. -/
def looksNegative : List Char → Bool
  | '-' :: rest =>
    let body := if rest.getLast? = some '\n' then rest.dropLast else rest
    let whole := body.takeWhile isDecimal
    match body.drop whole.length with
    | [] => whole ≠ []
    | '.' :: digits => digits ≠ [] && digits.all isDecimal
    | _ => false
  | _ => false

/-- The flags that an argument may stand for, spelled out, with what is attached to it. -/
def candidates (s : List Char) : List (String × Flag × Attached) :=
  match s with
  | '-' :: '-' :: _ =>
    let (front, value) := splitAssignment s
    (Flag.spellings.filter fun spelling => front.isPrefixOf spelling.1.toList).map fun spelling =>
      (spelling.1, spelling.2, attachedOf value)
  | '-' :: c :: rest =>
    (Flag.spellings.filter fun spelling => spelling.1.toList == ['-', c]).map fun spelling =>
      (spelling.1, spelling.2, .joined rest)
  | _ => []

/-- What an argument is that begins with a dash and is longer than that. -/
def dashed (s : List Char) : Except UsageError Word :=
  let (front, value) := splitAssignment s
  match Flag.ofSpelling? s, Flag.ofSpelling? front, value with
  | some flag, _, _ => .ok (.flag flag .nothing)
  | none, some flag, some value =>
    .ok (.flag flag (if isLong front then .assigned value else .joined value))
  | none, _, _ =>
    match candidates s with
    | [(_, flag, attached)] => .ok (.flag flag attached)
    | [] =>
      if looksNegative s || s.contains ' ' then .ok (.plain (String.ofList s))
      else .ok (.unknown (String.ofList s))
    | several => .error (.ambiguous (String.ofList s) (several.map (·.1)))

/-- Sorts the arguments into words. -/
def words : List String → Except UsageError (List Word)
  | [] => .ok []
  | argument :: rest =>
    if argument = "--" then .ok (.dashes :: rest.map .plain)
    else match argument.toList with
    | '-' :: c :: more => do
      let word ← dashed ('-' :: c :: more)
      return word :: (← words rest)
    | _ => return .plain argument :: (← words rest)

/-- The letters behind a short flag without a value, which are short flags too; the last may have
the rest for its value. What is no flag is a value that the flag before it does not take. -/
def cluster (flag : Flag) : List Char → Except UsageError (List (Flag × Option (List Char)))
  | [] => .error (.ignoredValue flag "")
  | c :: rest =>
    match Flag.ofSpelling? ['-', c], rest with
    | none, _ => .error (.ignoredValue flag (String.ofList (c :: rest)))
    | some next, [] => .ok [(flag, none), (next, none)]
    | some next, _ =>
      if next.takesValue then .ok [(flag, none), (next, some rest)]
      else ((flag, none) :: ·) <$> cluster next rest

/-- The flags of one word, with the values attached to them. -/
def expand (flag : Flag) : Attached → Except UsageError (List (Flag × Option (List Char)))
  | .nothing => .ok [(flag, none)]
  | .assigned value =>
    if flag.takesValue then .ok [(flag, some value)]
    else .error (.ignoredValue flag (String.ofList value))
  | .joined value => if flag.takesValue then .ok [(flag, some value)] else cluster flag value

/-- The flag, the last one of a word, that waits for the next word to be its value. -/
def waiting? (flags : List (Flag × Option (List Char))) : Option Flag :=
  match flags.getLast? with
  | some (flag, none) => if flag.takesValue then some flag else none
  | _ => none

/-- What the words so far want of the next one. -/
inductive Expecting where
  | nothing
  /-- It is the value of the last of these flags. -/
  | value (flags : List (Flag × Option (List Char))) (last : Flag)
  /-- The two dashes mean nothing, since the input is next to them. -/
  | dashes

/-- A command line that is read up to some word. -/
structure Reading where
  input : Option String
  /-- The arguments that belong to nothing. -/
  extra : List String
  /-- What the flags have given; the input in it is not looked at. -/
  given : Arguments
  expecting : Expecting

namespace Reading

/-- A command line of which nothing is read. -/
def empty : Reading :=
  ⟨none, [], { input := "" }, .nothing⟩

/-- Takes a flag with its value, which is `none` if there is none or it was dropped. -/
def give (r : Reading) (flag : Flag) (value : Option String) : Except Refusal Reading :=
  match flag with
  | .help => .error .help
  | .output => .ok { r with given := { r.given with output := value } }
  | .config => .ok { r with given := { r.given with config := value } }
  | .skip => .ok { r with given := { r.given with skip := r.given.skip ++ [value] } }
  | .check => .ok { r with given := { r.given with check := true } }
  | .debug => .ok { r with given := { r.given with debug := true } }
  | .limit =>
    match value with
    | none => .ok { r with given := { r.given with limit := .blank } }
    | some text =>
      match integerOfText? text.toList with
      | some n => .ok { r with given := { r.given with limit := .number n } }
      | none => .error (.usage (.invalidInteger flag text))

/-- An attached value as it reaches its flag: two dashes are dropped. -/
def kept (value : List Char) : Option String :=
  if value = ['-', '-'] then none else some (String.ofList value)

/-- Takes the flags of a word. A flag without a value attached gets the one that is passed along.
-/
def giveAll (value : Option String) (r : Reading) (flags : List (Flag × Option (List Char))) :
    Except Refusal Reading :=
  flags.foldlM (fun r flag => r.give flag.1 ((flag.2.map kept).getD value))
    { r with expecting := .nothing }

/-- Takes an argument that belongs to nothing. -/
def leave (r : Reading) (argument : String) : Reading :=
  { r with extra := r.extra ++ [argument], expecting := .nothing }

/-- Takes a word that is no value. The first plain one is the input. The two dashes mean nothing if
they come before the input or directly after it. -/
def takeWord (r : Reading) : Word → Except Refusal Reading
  | .plain s =>
    .ok (if r.input.isNone then { r with input := some s, expecting := .dashes } else r.leave s)
  | .unknown s => .ok (r.leave s)
  | .dashes =>
    match r.input, r.expecting with
    | none, _ => .ok r
    | some _, .dashes => .ok { r with expecting := .nothing }
    | some _, _ => .ok (r.leave "--")
  | .flag flag attached =>
    match expand flag attached with
    | .error e => .error (.usage e)
    | .ok flags =>
      match waiting? flags with
      | none => r.giveAll none flags
      | some last => .ok { r with expecting := .value flags last }

/-- Takes a word. -/
def take (r : Reading) (word : Word) : Except Refusal Reading :=
  match r.expecting, word with
  | .value flags _, .plain value => r.giveAll (some value) flags
  | .value _ last, _ => .error (.usage (.missingValue last))
  | _, word => r.takeWord word

/-- The arguments, if nothing is missing or left over. -/
def finish (r : Reading) : Except Refusal Arguments :=
  match r.expecting, r.input with
  | .value _ last, _ => .error (.usage (.missingValue last))
  | _, none => .error (.usage .missingInput)
  | _, some input =>
    if r.extra = [] then .ok { r.given with input }
    else .error (.usage (.unrecognized r.extra))

end Reading

/-- Reads a command line. -/
def parse (arguments : List String) : Except Refusal Arguments :=
  match words arguments with
  | .error e => .error (.usage e)
  | .ok words => words.foldlM Reading.take .empty >>= Reading.finish

end CommandLine

end AsmLexer

import AsmLexer.CommandLine.Arguments
import AsmLexer.Files.FileTree
import AsmLexer.Text.Utf8
import AsmLexer.Token.Kind
import AsmLexer.Toml.Document

/-!
# Options

The options of a run come from the command line and from a configuration file beside the input.
Kinds to skip add up. The error limit of the command line goes before that of the file, and only
the one that counts is tested. Entries of the file with a meaning of their own but the wrong type
are ignored; the entries of a list of kinds are taken by their text, whatever they are.

Of several faults the first bad entry of the file is reported, else the first bad kind of the
command line, else a bad limit.
-/

set_option autoImplicit false

namespace AsmLexer

/-- The settled options of a run. -/
structure Options where
  input : Path
  /-- Where the listing goes, if not to standard output. -/
  output : Option Path
  /-- The kinds to leave out, in the order of `Kind.all`. -/
  skip : List Kind
  /-- After how many errors to stop; zero is no limit. -/
  limit : Nat
  check : Bool
  debug : Bool
deriving DecidableEq

/-- Why there are no options. -/
inductive OptionError where
  /-- The configuration file is no configuration document. -/
  | faultyConfig (fault : Toml.Fault)
  /-- The configuration file is not text. -/
  | undecodableConfig
  /-- The configuration file cannot be looked for, or it is there and may not be read. -/
  | unreachableConfig (path : Path) (cause : FileError)
  /-- An entry among the kinds of the configuration has no text. -/
  | unshownEntry (fault : Toml.DisplayFault)
  | unknownKind (name : String)
  /-- The name of a kind was dropped from the command line. -/
  | missingKind
  /-- The limit was dropped from the command line. -/
  | missingLimit
  | negativeLimit (limit : Int)
deriving DecidableEq

/-- What is said of missing options. -/
def OptionError.message : OptionError → String
  | .faultyConfig .malformed => "invalid config file: not a well-formed document"
  | .faultyConfig (.longNumber digits) =>
    "the config file holds a number of " ++ toString digits ++ " digits"
  | .faultyConfig .tooDeep => "the config file is nested too deep"
  | .undecodableConfig => "the config file is not UTF-8 text"
  | .unreachableConfig path cause => cause.message path
  | .unshownEntry .longNumber => "a number among the kinds of the config file has too many digits"
  | .unshownEntry .tooDeep => "a value among the kinds of the config file is nested too deep"
  | .unknownKind name => Kind.unknownMessage name
  | .missingKind => "no token kind is given"
  | .missingLimit => "no error limit is given"
  | .negativeLimit limit => "error limit must not be negative: " ++ toString limit

/-- Whether missing options break a run off. What is refused in so many words does not: a document
that is not well-formed, a kind that is unknown, and a limit that is negative. -/
def OptionError.breaksOff : OptionError → Bool
  | .faultyConfig .malformed | .unknownKind _ | .negativeLimit _ => false
  | .faultyConfig (.longNumber _) | .faultyConfig .tooDeep => true
  | .undecodableConfig | .unreachableConfig _ _ | .unshownEntry _ => true
  | .missingKind | .missingLimit => true

/-- The name of the configuration file that is looked for beside the input. -/
def configName : String := "asmscan.toml"

/-- A path given on the command line; an empty one counts as not given. -/
def givenPath (argument : Option String) : Option Path :=
  match argument with
  | none => none
  | some s => if s = "" then none else some (Path.ofString s)

/-- The path of the configuration: the one that is given, or else beside the input. -/
def configPath (args : Arguments) : Path :=
  (givenPath args.config).getD ((Path.ofString args.input).parent.child configName)

/-- The configuration. A file that is not there means an empty one. -/
def loadConfig (files : FileTree) (args : Arguments) : Except OptionError Toml.Table :=
  let path := configPath args
  match files.read path with
  | .error .nameTooLong => .error (.unreachableConfig path .nameTooLong)
  | .error .permissionDenied => .error (.unreachableConfig path .permissionDenied)
  | .error _ => .ok []
  | .ok bytes =>
    match Utf8.decode? bytes with
    | none => .error .undecodableConfig
    | some document =>
      match Toml.parse document with
      | .error fault => .error (.faultyConfig fault)
      | .ok config => .ok config

/-- The value of a key of a table that is the value of a key of the document. -/
def configValue? (config : Toml.Table) (table key : String) : Option Toml.Value :=
  match config.get? table with
  | some (.table entries) => Toml.Table.get? entries key
  | _ => none

/-- The entries that say which kinds a configuration skips. -/
def configSkip (config : Toml.Table) : List Toml.Value :=
  match configValue? config "output" "skip" with
  | some (.array items) => items
  | _ => []

/-- The error limit of a configuration, zero if it has none. -/
def configLimit (config : Toml.Table) : Int :=
  ((configValue? config "errors" "max").bind Toml.Value.integer?).getD 0

/-- The kind with this name. -/
def kindNamed (name : String) : Except OptionError Kind :=
  match Kind.ofName? name with
  | none => .error (.unknownKind name)
  | some kind => .ok kind

/-- The kind that an entry of a configuration names by its text. -/
def kindOfEntry (entry : Toml.Value) : Except OptionError Kind :=
  match entry.display with
  | .error fault => .error (.unshownEntry fault)
  | .ok name => kindNamed name

/-- The kind that a command line names. -/
def kindOfArgument : Option String → Except OptionError Kind
  | none => .error .missingKind
  | some name => kindNamed name

/-- The limit that counts: that of the command line if it has one, else that of the configuration.
-/
def limitOf (configured : Int) : LimitArgument → Except OptionError Int
  | .absent => .ok configured
  | .blank => .error .missingLimit
  | .number n => .ok n

namespace Options

/-- The options from a configuration and a command line. -/
def merge (config : Toml.Table) (args : Arguments) : Except OptionError Options := do
  let configured ← (configSkip config).mapM kindOfEntry
  let given ← args.skip.mapM kindOfArgument
  let limit ← limitOf (configLimit config) args.limit
  if limit < 0 then .error (.negativeLimit limit)
  else return {
    input := Path.ofString args.input
    output := givenPath args.output
    skip := Kind.all.filter fun kind => (configured ++ given).contains kind
    limit := limit.toNat
    check := args.check
    debug := args.debug }

/-- The options of a run among these files. -/
def resolve (files : FileTree) (args : Arguments) : Except OptionError Options := do
  merge (← loadConfig files args) args

end Options

end AsmLexer

import AsmLexer.CommandLine.Usage
import AsmLexer.Listing
import AsmLexer.Options
import AsmLexer.Report

/-!
# A run of the command

A run takes the files of a working directory and a command line. It prints, and it may write one
file: the listing, at the path given for it, after the whole scan. The status is zero for a source
without errors and one for a source with errors; it is two where nothing was scanned.
-/

set_option autoImplicit false

namespace AsmLexer

/-- What breaks a run off instead of giving it a status. -/
inductive Breakdown where
  /-- The options cannot be settled. -/
  | options (error : OptionError)
  /-- The input has a path that no file can have. -/
  | input (path : Path) (error : FileError)
  /-- The listing cannot be written. -/
  | output (path : Path) (error : FileError)
deriving DecidableEq

/-- What is said of a run that is broken off. -/
def Breakdown.message : Breakdown → String
  | .options error => error.message
  | .input path error => error.message path
  | .output path error => error.message path

/-- How a run ends. -/
inductive Ending where
  | status (code : Nat)
  | broken (cause : Breakdown)
deriving DecidableEq

/-- What a run leaves behind. -/
structure Outcome where
  ending : Ending
  stdout : String
  stderr : String
  files : FileTree

/-- What is printed about an error that ends a run. -/
def errorLine (message : String) : String :=
  "error: " ++ message ++ "\n"

namespace Outcome

/-- A run that changed no file and printed only this to standard error. -/
def refused (files : FileTree) (ending : Ending) (stderr : String) : Outcome :=
  ⟨ending, "", stderr, files⟩

end Outcome

/-- What goes to standard error under `debug`: the log and all tokens. -/
def Report.debugNotes (r : Report) (options : Options) : String :=
  if options.debug then r.log ++ dump r.tokens else ""

/-- What goes to standard error in the end: the diagnostics under `check`, and a note if the error
limit was reached. -/
def Report.closingNotes (r : Report) (options : Options) : String :=
  (if options.check then r.diagnostics options.input.text else "") ++
    if r.truncated then errorLine "too many errors" else ""

/-- The status of a report. -/
def Report.status (r : Report) : Nat :=
  if r.errors = [] then 0 else 1

/-- Publishes a report: the listing goes to one place, and under `check` to none. -/
def Report.publish (r : Report) (options : Options) (files : FileTree) : Outcome :=
  let listed := listing options.skip r.tokens
  let done := Ending.status r.status
  let notes := r.debugNotes options ++ r.closingNotes options
  if options.check then ⟨done, "", notes, files⟩
  else match options.output with
  | none => ⟨done, listed, notes, files⟩
  | some path =>
    match files.write path (Utf8.encode listed.toList) with
    | .ok files => ⟨done, "", notes, files⟩
    | .error e => .refused files (.broken (.output path e)) (r.debugNotes options)

/-- Scans the input and publishes the report. -/
def runWith (options : Options) (files : FileTree) : Outcome :=
  match files.read options.input with
  | .error e =>
    if e = .nullInPath then .refused files (.broken (.input options.input e)) ""
    else .refused files (.status 2) (errorLine (e.message options.input))
  | .ok source => (Report.ofSource options.limit source).publish options files

/-- Runs the command. -/
def run (files : FileTree) (arguments : List String) : Outcome :=
  match CommandLine.parse arguments with
  | .error .help => ⟨.status 0, CommandLine.help, "", files⟩
  | .error (.usage e) => .refused files (.status 2) (CommandLine.complaint e)
  | .ok args =>
    match Options.resolve files args with
    | .ok options => runWith options files
    | .error e =>
      if e.breaksOff then .refused files (.broken (.options e)) ""
      else .refused files (.status 2) (errorLine e.message)

end AsmLexer

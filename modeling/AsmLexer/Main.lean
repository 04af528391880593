import AsmLexer.Run

/-!
# The command

The outer layer: it looks up those files that the command line can mean, runs the command on them,
and carries out what the run leaves behind.
-/

set_option autoImplicit false

namespace AsmLexer

/-- The names of a path of the system. -/
def namesOfText (s : String) : List String :=
  (Path.ofString s).names

/-- Looks up what is at a place of the system and puts it into a tree. -/
def lookUp (t : FileTree) (place : List String) : IO FileTree := do
  let location := (← IO.currentDir) / ("/" ++ "/".intercalate place)
  if ← location.isDir then
    return { t with entries := (place, .directory) :: t.entries }
  else if ← location.pathExists then
    let content ← (IO.FS.readBinFile location).toBaseIO
    -- opening a file to append to it changes nothing and asks for the permission to write
    let writing ← (IO.FS.Handle.mk location .append).toBaseIO
    let entry := match content, writing with
      | .ok bytes, .ok _ => FileEntry.file bytes.toList
      | .ok bytes, .error _ => .readOnly bytes.toList
      | .error _, _ => .locked
    return { t with entries := (place, entry) :: t.entries }
  else return t

/-- Looks up what is on the way that a path goes. -/
def lookUpPath (t : FileTree) (path : Path) : IO FileTree := do
  let start := if path.root = "" then t.workingDirectory else []
  let (_, t) ← path.names.foldlM (fun (place, t) name => do
    let place := if name = ".." then place.dropLast else place ++ [name]
    return (place, ← lookUp t place)) (start, t)
  return t

/-- The paths that a command line can mean. -/
def meantPaths (args : Arguments) : List Path :=
  [Path.ofString args.input, configPath args] ++ (givenPath args.output).toList

/-- The part of the system's files that a command line can mean. -/
def lookUpAll (arguments : List String) : IO FileTree := do
  let t := FileTree.empty (namesOfText (← IO.currentDir).toString)
  match CommandLine.parse arguments with
  | .error _ => return t
  | .ok args => (meantPaths args).foldlM lookUpPath t

/-- Writes the files that a run has changed. -/
def carryOut (before : FileTree) (outcome : Outcome) : IO Unit := do
  for (place, entry) in outcome.files.entries.take
      (outcome.files.entries.length - before.entries.length) do
    if let .file bytes := entry then
      let location := (← IO.currentDir) / ("/" ++ "/".intercalate place)
      IO.FS.writeBinFile location (ByteArray.mk bytes.toArray)

end AsmLexer

/-- Runs the command of a command line on the files of the system. -/
def main (arguments : List String) : IO UInt32 := do
  let files ← AsmLexer.lookUpAll arguments
  let outcome := AsmLexer.run files arguments
  AsmLexer.carryOut files outcome
  (← IO.getStdout).putStr outcome.stdout
  (← IO.getStderr).putStr outcome.stderr
  match outcome.ending with
  | .status code => return code.toUInt32
  | .broken cause =>
    (← IO.getStderr).putStr (AsmLexer.errorLine cause.message)
    return 1

import AsmLexer.Files.Path
import AsmLexer.Text.Quoted

/-!
# Files and directories

A file tree is a root directory with all that is in it, seen from one of its directories, the
working directory. A path is followed name by name, from the root or from the working directory:
every name but the last must lead to a directory, and the name of the directory above leads back,
though never past the root.

Reading and writing fail in the same cases and give the same reasons as a POSIX system does.
-/

set_option autoImplicit false

namespace AsmLexer

/-- What is at a place in a file tree. -/
inductive FileEntry where
  | file (bytes : List UInt8)
  | directory
  /-- A file that may be read but not written. -/
  | readOnly (bytes : List UInt8)
  /-- A file that may be neither read nor written. -/
  | locked
deriving DecidableEq

/-- A file tree. -/
structure FileTree where
  /-- The names that lead from the root to the working directory. -/
  workingDirectory : List String
  /-- The entries, each with the names that lead to it from the root. The first entry of a place
  counts. -/
  entries : List (List String × FileEntry)

/-- Why a file is not read or written. -/
inductive FileError where
  | notFound
  | notADirectory
  | isADirectory
  | permissionDenied
  | nameTooLong
  /-- The path holds the null character, so no file can have it. -/
  | nullInPath
deriving DecidableEq

/-- The number that the system has for a failure. -/
def FileError.number : FileError → Nat
  | .notFound => 2
  | .permissionDenied => 13
  | .notADirectory => 20
  | .isADirectory => 21
  | .nameTooLong => 36
  | .nullInPath => 22

/-- The words that the system has for a failure. -/
def FileError.words : FileError → String
  | .notFound => "No such file or directory"
  | .permissionDenied => "Permission denied"
  | .notADirectory => "Not a directory"
  | .isADirectory => "Is a directory"
  | .nameTooLong => "File name too long"
  | .nullInPath => "Invalid argument"

/-- What is said of a failure at a path. -/
def FileError.message (e : FileError) (path : Path) : String :=
  "[Errno " ++ toString e.number ++ "] " ++ e.words ++ ": " ++ quoted path.text

namespace FileTree

/-- The longest name that a file can have, in bytes. -/
def longestName : Nat := 255

/-- The longest path that can be followed, in bytes. -/
def longestPath : Nat := 4095

/-- What is at a place. The root is always there. -/
def entry? (t : FileTree) (place : List String) : Option FileEntry :=
  if place = [] then some .directory else t.entries.lookup place

/-- Follows names from a place to another, at which there need not be anything. -/
def follow (t : FileTree) : List String → List String → Except FileError (List String)
  | place, [] => .ok place
  | place, name :: rest =>
    match t.entry? place with
    | none => .error .notFound
    | some (.file _) | some (.readOnly _) | some .locked => .error .notADirectory
    | some .directory =>
      if longestName < name.utf8ByteSize then .error .nameTooLong
      else t.follow (if name = ".." then place.dropLast else place ++ [name]) rest

/-- The place to which a path leads. -/
def locate (t : FileTree) (path : Path) : Except FileError (List String) :=
  if path.text.toList.contains '\x00' then .error .nullInPath
  else if longestPath < path.text.utf8ByteSize then .error .nameTooLong
  else t.follow (if path.root = "" then t.workingDirectory else []) path.names

/-- The bytes of the file at a path. -/
def read (t : FileTree) (path : Path) : Except FileError (List UInt8) := do
  match t.entry? (← t.locate path) with
  | none => .error .notFound
  | some .directory => .error .isADirectory
  | some .locked => .error .permissionDenied
  | some (.file bytes) | some (.readOnly bytes) => .ok bytes

/-- The tree with new bytes in the file at a path, which is made if its directory is there. -/
def write (t : FileTree) (path : Path) (bytes : List UInt8) : Except FileError FileTree := do
  let place ← t.locate path
  match t.entry? place with
  | some .directory => .error .isADirectory
  | some (.readOnly _) | some .locked => .error .permissionDenied
  | none | some (.file _) => .ok { t with entries := (place, .file bytes) :: t.entries }

/-- A tree that holds nothing but its working directory. -/
def empty (workingDirectory : List String) : FileTree :=
  ⟨workingDirectory, (List.range workingDirectory.length).map fun count =>
    (workingDirectory.take (count + 1), .directory)⟩

end FileTree

end AsmLexer

/-!
# Paths

A path is a sequence of names, from a root or from the working directory. Repeated slashes, a slash
at the end and the name of the present directory mean nothing and are dropped; the name of the
directory above is kept, since what is above depends on the files. Exactly two slashes in front
make a root of their own.
-/

set_option autoImplicit false

namespace AsmLexer

/-- Names from a root, which is written with one slash or two, or from the working directory. -/
structure Path where
  root : String
  names : List String
deriving DecidableEq

namespace Path

/-- The pieces of a text between slashes. -/
def pieces : List Char → List (List Char)
  | [] => [[]]
  | c :: rest =>
    if c = '/' then [] :: pieces rest
    else match pieces rest with
    | [] => [[c]]
    | piece :: others => (c :: piece) :: others

/-- The path that a text means. -/
def ofString (s : String) : Path :=
  let slashes := (s.toList.takeWhile (· = '/')).length
  let root := if slashes = 0 then "" else if slashes = 2 then "//" else "/"
  let names := (pieces s.toList).filter fun piece => piece ≠ [] ∧ piece ≠ ['.']
  ⟨root, names.map String.ofList⟩

/-- How a path is written. -/
def text (p : Path) : String :=
  if p.names = [] then if p.root = "" then "." else p.root
  else p.root ++ "/".intercalate p.names

/-- The path without its last name; a path without names stays. -/
def parent (p : Path) : Path :=
  { p with names := p.names.dropLast }

/-- The path of a name in a directory. -/
def child (p : Path) (name : String) : Path :=
  { p with names := p.names ++ [name] }

end Path

end AsmLexer

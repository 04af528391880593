import AsmLexer.Number.Binary64
import AsmLexer.Number.Integer
import AsmLexer.Text.Quoted
import AsmLexer.Toml.Fault
import AsmLexer.Toml.Moment

/-!
# Values of a configuration document

A document is a table: keys with values, in the order in which they were first written. A value is
shown in two ways. Inside a list or table it is an expression, in which text is quoted; by itself
text is shown as it is, and a moment in its usual form. A number with too many digits is not shown,
nor is a value that is nested too deep.
-/

set_option autoImplicit false

namespace AsmLexer.Toml

/-- A value of a configuration document. -/
inductive Value where
  | text (s : String)
  | integer (n : Int)
  | real (x : Binary64)
  | truth (b : Bool)
  | moment (m : Moment)
  | array (items : List Value)
  | table (entries : List (String × Value))

/-- Keys with values, in order. No key is there twice. -/
abbrev Table := List (String × Value)

namespace Table

/-- The value of a key. -/
def get? (t : Table) (key : String) : Option Value :=
  t.lookup key

/-- Gives a key a value: in its place if it has one, at the end if it is new. -/
def put (t : Table) (key : String) (value : Value) : Table :=
  if (t.get? key).isSome then t.map fun entry => if entry.1 = key then (key, value) else entry
  else t ++ [(key, value)]

/-- Changes the table that a path of keys leads to. Tables that are not there yet are made on the
way. A list of tables stands for its last one where `throughArrays` holds; any other value blocks
the path. -/
def modifyAt (throughArrays : Bool) : List String → (Table → Option Table) → Table → Option Table
  | [], change, t => change t
  | key :: path, change, t =>
    match t.get? key with
    | none => (modifyAt throughArrays path change []).map fun inner => t.put key (.table inner)
    | some (.table inner) =>
      (modifyAt throughArrays path change inner).map fun inner => t.put key (.table inner)
    | some (.array items) =>
      match throughArrays, items.getLast? with
      | true, some (.table inner) =>
        (modifyAt throughArrays path change inner).map fun inner =>
          t.put key (.array (items.dropLast ++ [.table inner]))
      | _, _ => none
    | some _ => none

end Table

namespace Value

mutual

/-- A value as an expression, if it is nested no deeper than `room`. -/
def expression (room : Nat) : Value → Except DisplayFault String
  | .text s => .ok (quoted s)
  | .integer n =>
    match decimal? n with
    | some digits => .ok digits
    | none => .error .longNumber
  | .real x => .ok x.text
  | .truth b => .ok (if b then "True" else "False")
  | .moment m => .ok m.expression
  | .array items => do
    return "[" ++ ", ".intercalate (← itemExpressions room items) ++ "]"
  | .table entries => do
    return "\x7b" ++ ", ".intercalate (← entryExpressions room entries) ++ "\x7d"

/-- The items of a list as expressions, if the list is nested no deeper than `room`. -/
def itemExpressions (room : Nat) : List Value → Except DisplayFault (List String)
  | [] => .ok []
  | value :: rest =>
    match room with
    | 0 => .error .tooDeep
    | inner + 1 => do
      let first ← value.expression inner
      return first :: (← itemExpressions room rest)

/-- The entries of a table as expressions, if the table is nested no deeper than `room`. -/
def entryExpressions (room : Nat) : List (String × Value) → Except DisplayFault (List String)
  | [] => .ok []
  | (key, value) :: rest =>
    match room with
    | 0 => .error .tooDeep
    | inner + 1 => do
      let first ← value.expression inner
      return (quoted key ++ ": " ++ first) :: (← entryExpressions room rest)

end

/-- A value by itself. -/
def display : Value → Except DisplayFault String
  | .text s => .ok s
  | .moment m => .ok m.text
  | value => value.expression deepestShown

/-- A value as a whole number: a truth value counts as zero or one. -/
def integer? : Value → Option Int
  | .integer n => some n
  | .truth b => some (if b then 1 else 0)
  | _ => none

/-- Whether a value holds other values, so that it may not be extended from outside. -/
def isContainer : Value → Bool
  | .array _ => true
  | .table _ => true
  | _ => false

end Value

end AsmLexer.Toml

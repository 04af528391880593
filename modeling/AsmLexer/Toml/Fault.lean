/-!
# Faults of a configuration document

A document that is not well-formed has no table. Two more things keep a document from being read,
and a value from being shown: a decimal number with too many digits, and values that are nested too
deep. Reading goes from left to right and stops at the first fault.
-/

set_option autoImplicit false

namespace AsmLexer.Toml

/-- Why a document is not read. -/
inductive Fault where
  | malformed
  /-- A decimal whole number has this many digits. -/
  | longNumber (digits : Nat)
  | tooDeep
deriving DecidableEq

/-- Why a value is not shown. -/
inductive DisplayFault where
  | longNumber
  | tooDeep
deriving DecidableEq

/-- The levels of nesting in a document that are read. A list counts as two levels, a table in
place as three. -/
def deepestRead : Nat := 986

/-- The levels of nesting in a value that are shown. -/
def deepestShown : Nat := 991

/-- What a reader found that fails only on what is not well-formed. -/
def orMalformed {α : Type} : Option α → Except Fault α
  | some a => .ok a
  | none => .error .malformed

end AsmLexer.Toml

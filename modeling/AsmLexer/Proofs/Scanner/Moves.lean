import AsmLexer.Proofs.Scanner.Passes

/-!
# The moves of a scanner

A pass reads a symbol, may put it back, and may settle where the next token starts. A property of
scanners that each of these moves keeps is kept by every pass (`Closed.pass`), hence by every step,
every run and every pull (`Closed.pull`). The token that is emitted points to the start or to the
last reading of a scanner that has the property.
-/

set_option autoImplicit false

namespace AsmLexer.Scanner

variable {P : Scanner → Prop}

/-- A property that every move of a scanner keeps. -/
structure Closed (P : Scanner → Prop) : Prop where
  read : ∀ {sc : Scanner}, P sc → P sc.read.2
  undo : ∀ {sc : Scanner}, P sc → P sc.undo
  settle : ∀ {sc : Scanner} (recovering : Bool), P sc → P { sc with start := sc.next, recovering }

/-- A place to which a token can point in a scanner with the property. -/
def Marks (P : Scanner → Prop) (pos : Position) : Prop :=
  ∃ sc, P sc ∧ (pos = sc.start.pos ∨ pos = sc.prev.pos)

/-- A step that keeps the property and emits only tokens that point to its places. -/
def Keeps (P : Scanner → Prop) : Step → Prop
  | .goto _ sc => P sc
  | .emit token sc => Marks P token.pos ∧ P sc

namespace Closed

section

variable {sc : Scanner} (hP : Closed P)

include hP

/-- Emitting keeps the property, and the token points to its start. -/
theorem emit (h : P sc) (kind : Kind) : Keeps P (sc.emit kind) :=
  ⟨⟨sc, h, .inl rfl⟩, hP.settle false h⟩

/-- Failing at a place of the scanner keeps the property. -/
theorem failAt (h : P sc) {pos : Position} (hpos : Marks P pos) (fault : Fault) :
    Keeps P (sc.failAt pos fault) :=
  ⟨hpos, hP.settle true h⟩

/-- Failing at the last reading keeps the property. -/
theorem fail (h : P sc) (fault : Fault) : Keeps P (sc.fail fault) :=
  hP.failAt h ⟨sc, h, .inr rfl⟩ fault

/-- An immediate value keeps the property, with a digit or without. -/
theorem emitImmediate (h : P sc) (base : Nat) : Keeps P (sc.emitImmediate base) := by
  unfold Scanner.emitImmediate
  split
  · exact hP.emit h .immediate
  · exact hP.failAt h ⟨sc, h, .inl rfl⟩ _

/-- A pass whose state goes on, or ends, as the property asks for. -/
theorem carryOut (h : P sc) (verdict : Verdict) :
    match sc.carryOut verdict with
    | .again sc' => P sc'
    | .ends result => Keeps P result := by
  cases verdict with
  | again => exact h
  | goto state => exact h
  | emit kind => exact hP.emit h kind
  | immediate base => exact hP.emitImmediate h base
  | fail fault => exact hP.fail h fault
  | lineDropped => exact hP.settle sc.recovering h
  | sourceDropped => exact hP.emit (hP.settle sc.recovering h) .endOfFile

/-- A property that is kept by the moves is kept by every pass. -/
theorem pass (h : P sc) (state : State) :
    match sc.pass state with
    | .again sc' => P sc'
    | .ends result => Keeps P result := by
  have hread := hP.read h
  rw [pass_eq]
  apply hP.carryOut
  unfold ruled
  split
  · exact hP.undo hread
  · exact hread

end

/-- A property that is kept by the moves is kept by every step. -/
theorem step (hP : Closed P) {sc : Scanner} (h : P sc) (state : State) :
    Keeps P (step state sc) := by
  have hpass := hP.pass h state
  cases hresult : sc.pass state with
  | ends result =>
    rw [hresult] at hpass
    rw [step_of_ends hresult]
    exact hpass
  | again sc' =>
    rw [hresult] at hpass
    rw [step_of_again hresult]
    exact step hP hpass state
termination_by sc.measure state
decreasing_by exact Progress.measure_lt (.inl (advances_of_again hresult))

/-- A run keeps the property and points to one of its places. -/
theorem run (hP : Closed P) {sc : Scanner} (h : P sc) (state : State) :
    Marks P (run state sc).1.pos ∧ P (run state sc).2 := by
  have hkeeps := hP.step h state
  cases hresult : Scanner.step state sc with
  | emit token sc' =>
    rw [hresult] at hkeeps
    rw [run_of_emit hresult]
    exact hkeeps
  | goto state' sc' =>
    rw [hresult] at hkeeps
    rw [run_of_goto hresult]
    exact run hP hkeeps state'
termination_by state.rank
decreasing_by exact rank_lt_of_step_goto hresult

/-- A pull keeps the property and points to one of its places. -/
theorem pull (hP : Closed P) {sc : Scanner} (h : P sc) :
    Marks P sc.pull.1.pos ∧ P sc.pull.2 :=
  hP.run h sc.resume

end Closed

end AsmLexer.Scanner

import AsmLexer.Scanner

/-!
# Pulling tokens

`Scanner.pull` runs the state machine until a token is emitted. It ends because every hand-over
lowers the rank of the state (`Scanner.rank_lt_of_step_goto`). Every token but the one at the end
of the source takes at least one symbol (`Scanner.remaining_pull_lt`), so `Scanner.drain`, which
pulls up to that one, ends as well, and `tokenize` lists the tokens of a source.
-/

set_option autoImplicit false

namespace AsmLexer

/-- How many times a state can hand over before a token is emitted, at most. -/
def State.rank : State → Nat
  | .skipLine => 3
  | .any => 2
  | .afterZero => 1
  | _ => 0

/-- The scanner after a step. -/
def Step.scanner : Step → Scanner
  | .goto _ sc => sc
  | .emit _ sc => sc

/-- The first character of a token leads to a state of lower rank. -/
theorem rank_lt_of_opening {c : Char} {state : State} (h : opening? c = some state) :
    state.rank < State.any.rank := by
  unfold opening? at h
  repeat' split at h
  all_goals cases h; try decide

/-- Skipping only moves forward. -/
theorem Cursor.length_skipWhile_le (skip : Symbol → Bool) (pos : Position) (rest : List Symbol) :
    (skipWhile skip pos rest).rest.length ≤ rest.length := by
  induction rest generalizing pos with
  | nil => exact Nat.le_refl _
  | cons symbol rest ih =>
    unfold skipWhile
    split
    · exact Nat.le_succ_of_le (ih _)
    · exact Nat.le_refl _

namespace Scanner

/-- How many symbols are still to be read. -/
def remaining (sc : Scanner) : Nat :=
  sc.next.rest.length

/-- A state hands over only to states of lower rank. -/
theorem rank_lt_of_step_goto {state state' : State} {sc sc' : Scanner}
    (h : step state sc = .goto state' sc') : state'.rank < state.rank := by
  cases state with
  | any =>
    simp only [step, stepAny, emit, fail, failAt] at h
    split at h
    · cases h
    · cases h
    · split at h
      · cases h
      · cases h; exact rank_lt_of_opening ‹_›
      · cases h
  | space => simp only [step, stepSpace, emit] at h; split at h <;> cases h
  | comment => simp only [step, stepComment, emit] at h; split at h <;> cases h
  | afterZero =>
    simp only [step, stepAfterZero, emit, fail, failAt] at h
    repeat' split at h
    all_goals cases h; try decide
  | digits base =>
    simp only [step, stepDigits, emitImmediate, emit, fail, failAt] at h
    repeat' split at h
    all_goals cases h
  | word kind =>
    simp only [step, stepWord, emit, fail, failAt] at h
    repeat' split at h
    all_goals cases h
  | skipLine =>
    simp only [step, stepSkipLine, emit] at h
    split at h <;> cases h
    decide

/-- Runs the state machine until a token is emitted. -/
def run (state : State) (sc : Scanner) : Token × Scanner :=
  match _h : step state sc with
  | .emit token sc' => (token, sc')
  | .goto state' sc' => run state' sc'
termination_by state.rank
decreasing_by exact rank_lt_of_step_goto _h

/-- A state that emits a token ends the run. -/
theorem run_of_emit {state : State} {sc sc' : Scanner} {token : Token}
    (h : step state sc = .emit token sc') : run state sc = (token, sc') := by
  rw [run]
  split <;> simp_all

/-- A state that hands over is continued by the other state. -/
theorem run_of_goto {state state' : State} {sc sc' : Scanner}
    (h : step state sc = .goto state' sc') : run state sc = run state' sc' := by
  rw [run]
  split <;> simp_all

/-- The state in which the next token is begun. -/
def resume (sc : Scanner) : State :=
  if sc.recovering then .skipLine else .any

/-- The next token, and the scanner after it. -/
def pull (sc : Scanner) : Token × Scanner :=
  run sc.resume sc

/-- A reading takes one symbol, or finds that there is none left. -/
theorem read_cases {sc sc' : Scanner} {symbol : Option Symbol} (h : sc.read = (symbol, sc')) :
    sc'.undo.remaining = sc.remaining ∧
      (symbol = none ∧ sc'.remaining = sc.remaining ∨
        symbol ≠ none ∧ sc'.remaining + 1 = sc.remaining) := by
  unfold read at h
  split at h <;> cases h <;> simp_all [remaining, undo, prev]

/-- Reading a run only moves forward, and so does undoing its last reading. -/
theorem remaining_readWhile_le {keep : Symbol → Bool} {sc sc' : Scanner} {symbol : Option Symbol}
    (h : sc.readWhile keep = (symbol, sc')) :
    sc'.remaining ≤ sc.remaining ∧ sc'.undo.remaining ≤ sc.remaining := by
  have hskip := Cursor.length_skipWhile_le keep sc.next.pos sc.next.rest
  have hread := read_cases h
  simp only [remaining] at *
  omega

/-- An immediate value is emitted with what remains unread unchanged. -/
theorem remaining_emitImmediate (base : Nat) (sc : Scanner) :
    (sc.emitImmediate base).scanner.remaining = sc.remaining := by
  unfold emitImmediate
  split <;> rfl

/-- A step never moves back. -/
theorem remaining_step_le (state : State) (sc : Scanner) :
    (step state sc).scanner.remaining ≤ sc.remaining := by
  cases state with
  | any =>
    simp only [step, stepAny]
    split
    all_goals rename_i h; have := read_cases h
    · simp only [emit, Step.scanner, remaining] at *; omega
    · simp only [fail, failAt, Step.scanner, remaining] at *; omega
    · split <;> simp only [emit, fail, failAt, Step.scanner, remaining] at * <;> omega
  | space =>
    simp only [step, stepSpace]
    split
    all_goals rename_i h; have := remaining_readWhile_le h
    all_goals simp only [emit, Step.scanner, remaining] at *; omega
  | comment =>
    simp only [step, stepComment]
    split
    all_goals rename_i h; have := remaining_readWhile_le h
    all_goals simp only [emit, Step.scanner, remaining] at *; omega
  | afterZero =>
    simp only [step, stepAfterZero]
    split
    all_goals rename_i h; have := read_cases h
    · simp only [emit, Step.scanner, remaining] at *; omega
    · simp only [fail, failAt, Step.scanner, remaining] at *; omega
    · repeat' split
      all_goals simp only [emit, fail, failAt, Step.scanner, remaining] at *; omega
  | digits base =>
    simp only [step, stepDigits]
    split
    all_goals rename_i h; have := remaining_readWhile_le h
    · rw [remaining_emitImmediate]; exact this.1
    · exact this.1
    · split
      · rw [remaining_emitImmediate]; exact this.2
      · exact this.1
  | word kind =>
    simp only [step, stepWord]
    split
    all_goals rename_i h; have := remaining_readWhile_le h
    · exact this.1
    · exact this.1
    · exact this.2
  | skipLine =>
    simp only [step, stepSkipLine]
    split
    all_goals rename_i h; have := remaining_readWhile_le h
    · exact this.1
    · exact this.2

/-- Running the machine never moves back. -/
theorem remaining_run_le (state : State) (sc : Scanner) :
    (run state sc).2.remaining ≤ sc.remaining := by
  have hstep := remaining_step_le state sc
  rw [run]
  split <;> rename_i h <;> rw [h] at hstep
  · exact hstep
  · exact Nat.le_trans (remaining_run_le _ _) hstep
termination_by state.rank
decreasing_by exact rank_lt_of_step_goto ‹_›

/-- While there is a symbol left, the start of a token takes one. -/
theorem remaining_stepAny_lt {sc : Scanner} (h : sc.next.rest ≠ []) :
    sc.stepAny.scanner.remaining < sc.remaining := by
  unfold stepAny
  split <;> rename_i hread <;> have := read_cases hread
  · simp_all [read]
    split at hread <;> simp_all
  · simp only [fail, failAt, Step.scanner, remaining] at *; grind
  · split <;> simp only [emit, fail, failAt, Step.scanner, remaining] at * <;> grind

/-- When no symbol is left, the token that ends the source is emitted. -/
theorem kind_run_any_of_end {sc : Scanner} (h : sc.next.rest = []) :
    (run .any sc).1.kind = .endOfFile := by
  have hread : sc.read = (none, { sc with checkpoint := some sc.next }) := by
    unfold read
    simp only [h]
  rw [run_of_emit (by simp only [step, stepAny, hread, emit]; rfl)]

/-- At the start of a token every token but the one that ends the source takes a symbol. -/
theorem remaining_run_any_lt {sc : Scanner} (h : (run .any sc).1.kind ≠ .endOfFile) :
    (run .any sc).2.remaining < sc.remaining := by
  have hstep := @remaining_stepAny_lt sc fun hend => h (kind_run_any_of_end hend)
  cases heq : step .any sc with
  | emit token sc' =>
    rw [run_of_emit heq]
    rwa [show sc.stepAny = .emit token sc' from heq] at hstep
  | goto state sc' =>
    rw [run_of_goto heq]
    rw [show sc.stepAny = .goto state sc' from heq] at hstep
    exact Nat.lt_of_le_of_lt (remaining_run_le _ _) hstep

/-- After a dropped line every token but the one that ends the source takes a symbol, too. -/
theorem remaining_run_skipLine_lt {sc : Scanner} (h : (run .skipLine sc).1.kind ≠ .endOfFile) :
    (run .skipLine sc).2.remaining < sc.remaining := by
  have hle := remaining_step_le .skipLine sc
  cases heq : step .skipLine sc with
  | emit token sc' =>
    rw [run_of_emit heq] at h
    simp only [step, stepSkipLine, emit] at heq
    split at heq <;> cases heq
    exact absurd rfl h
  | goto state sc' =>
    rw [heq] at hle
    rw [run_of_goto heq] at h ⊢
    simp only [step, stepSkipLine, emit] at heq
    split at heq <;> cases heq
    exact Nat.lt_of_lt_of_le (remaining_run_any_lt h) hle

/-- Every token but the one that ends the source takes a symbol. -/
theorem remaining_pull_lt {sc : Scanner} (h : sc.pull.1.kind ≠ .endOfFile) :
    sc.pull.2.remaining < sc.remaining := by
  unfold pull resume at *
  split at h
  · simp_all only [if_true]
    exact remaining_run_skipLine_lt h
  · simp_all only
    exact remaining_run_any_lt h

/-- The tokens up to the one that ends the source, and the scanner after it. -/
def drain (sc : Scanner) : List Token × Scanner :=
  match _h : sc.pull with
  | (token, sc') =>
    if _hkind : token.kind = .endOfFile then ([token], sc')
    else
      let (tokens, last) := sc'.drain
      (token :: tokens, last)
termination_by sc.remaining
decreasing_by
  have := @remaining_pull_lt sc
  simp_all

end Scanner

/-- The tokens of a source, the last of which marks its end. -/
def tokenize (source : List UInt8) : List Token :=
  (Scanner.ofSource source).drain.1

end AsmLexer

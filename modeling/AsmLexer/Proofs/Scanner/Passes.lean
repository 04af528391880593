import AsmLexer.Scanner.Pull

/-!
# The passes of a state

A state of the scanner is a loop, and each pass of the loop makes one reading. `State.ruling` is the
table of all states: it says what comes of a reading, and whether the symbol is put back first.
`Scanner.pass` makes one pass by this table, and `Scanner.step` is the loop of passes
(`Scanner.step_eq_pass`).

No pass goes in circles. It takes a symbol, or else it ends the state and the next one is of lower
weight, unless the source has ended (`Scanner.leadsOn_pass`).
-/

set_option autoImplicit false

namespace AsmLexer

/-! ## The table -/

/-- What comes of a reading. -/
inductive Verdict where
  | again
  | goto (state : State)
  | emit (kind : Kind)
  | immediate (base : Nat)
  | fail (fault : Fault)
  /-- The rest of an erroneous line is dropped up to its newline. -/
  | lineDropped
  /-- The rest of an erroneous line is dropped up to the end of the source. -/
  | sourceDropped

/-- A verdict, and whether the symbol that was read is put back before it is carried out. -/
structure Ruling where
  putsBack : Bool
  verdict : Verdict

/-- What a state makes of a symbol, or of the end of the source. -/
def State.ruling : State → Option Symbol → Ruling
  | .any, none => ⟨false, .emit .endOfFile⟩
  | .any, some (.malformed byte) => ⟨false, .fail (.invalidByte byte)⟩
  | .any, some (.char c) =>
    match punctuation? c, opening? c with
    | some kind, _ => ⟨false, .emit kind⟩
    | none, some state => ⟨false, .goto state⟩
    | none, none => ⟨false, .fail (.illegalSymbol c)⟩
  | .space, none => ⟨false, .emit .space⟩
  | .space, some s =>
    if s.satisfies fun c => c != '\n' && isBlank c then ⟨false, .again⟩ else ⟨true, .emit .space⟩
  | .comment, none => ⟨false, .emit .comment⟩
  | .comment, some s => if s.staysOnLine then ⟨false, .again⟩ else ⟨true, .emit .comment⟩
  | .afterZero, none => ⟨false, .emit .immediate⟩
  | .afterZero, some (.malformed byte) => ⟨false, .fail (.invalidByte byte)⟩
  | .afterZero, some (.char c) =>
    if c = 'b' ∨ c = 'B' then ⟨false, .goto (.digits 2)⟩
    else if c = 'x' ∨ c = 'X' then ⟨false, .goto (.digits 16)⟩
    else if isSeparator c then ⟨true, .emit .immediate⟩
    else if '0' ≤ c ∧ c ≤ '9' then ⟨true, .goto (.digits 8)⟩
    else ⟨false, .fail (.illegalAfterZero c)⟩
  | .digits base, none => ⟨false, .immediate base⟩
  | .digits _, some (.malformed byte) => ⟨false, .fail (.invalidByte byte)⟩
  | .digits base, some (.char c) =>
    if isDigitIn base c then ⟨false, .again⟩
    else if isSeparator c then ⟨true, .immediate base⟩
    else ⟨false, .fail (.illegalDigit c base)⟩
  | .word kind, none => ⟨false, .emit kind⟩
  | .word _, some (.malformed byte) => ⟨false, .fail (.invalidByte byte)⟩
  | .word kind, some (.char c) =>
    if isNameChar c then ⟨false, .again⟩ else ⟨true, .emit kind⟩
  | .skipLine, none => ⟨false, .sourceDropped⟩
  | .skipLine, some s => if s.staysOnLine then ⟨false, .again⟩ else ⟨true, .lineDropped⟩

/-- How a pass ends: the loop goes on, or the state ends. -/
inductive Pass where
  | again (scanner : Scanner)
  | ends (step : Step)

namespace Scanner

/-- Carries out a verdict. -/
def carryOut (sc : Scanner) : Verdict → Pass
  | .again => .again sc
  | .goto state => .ends (.goto state sc)
  | .emit kind => .ends (sc.emit kind)
  | .immediate base => .ends (sc.emitImmediate base)
  | .fail fault => .ends (sc.fail fault)
  | .lineDropped => .ends (.goto .any { sc with start := sc.next })
  | .sourceDropped => .ends ({ sc with start := sc.next }.emit .endOfFile)

/-- A scanner after a reading that is undone if the ruling says so. -/
def ruled (sc : Scanner) (ruling : Ruling) : Scanner :=
  if ruling.putsBack then sc.undo else sc

/-- One pass of a state. -/
def pass (sc : Scanner) (state : State) : Pass :=
  let (symbol, sc) := sc.read
  let ruling := state.ruling symbol
  (sc.ruled ruling).carryOut ruling.verdict

/-- A pass reads, and then carries out the ruling on what it has read. -/
theorem pass_eq (sc : Scanner) (state : State) :
    sc.pass state = (sc.read.2.ruled (state.ruling sc.read.1)).carryOut
      (state.ruling sc.read.1).verdict := rfl

/-! ## A state is the loop of its passes -/

section

variable {sc sc' : Scanner} {symbol : Option Symbol}

/-- A run goes on behind the first symbol if that is kept. The checkpoint in between does not
matter, since each reading sets it anew. -/
theorem readWhile_of_keep {keep : Symbol → Bool} {s : Symbol} (h : sc.read = (some s, sc'))
    (hs : keep s = true) : sc.readWhile keep = sc'.readWhile keep := by
  obtain ⟨start, ⟨pos, rest⟩, checkpoint, recovering⟩ := sc
  cases rest with
  | nil => cases h
  | cons s rest =>
    cases h
    simp only [readWhile, Cursor.skipWhile, hs, if_true]
    rfl

/-- A run ends with the first symbol if that is not kept. -/
theorem readWhile_of_stop {keep : Symbol → Bool} (h : sc.read = (symbol, sc'))
    (hs : ∀ s ∈ symbol, keep s = false) : sc.readWhile keep = (symbol, sc') := by
  obtain ⟨start, ⟨pos, rest⟩, checkpoint, recovering⟩ := sc
  cases rest with
  | nil => exact h
  | cons s rest =>
    cases h
    simp only [readWhile, Cursor.skipWhile, hs s rfl, Bool.false_eq_true, if_false]
    rfl

/-- A state goes on as its first pass says. -/
theorem step_eq_pass (state : State) (sc : Scanner) :
    step state sc = match sc.pass state with
      | .again sc' => step state sc'
      | .ends result => result := by
  obtain ⟨symbol, sc', h⟩ : ∃ symbol sc', sc.read = (symbol, sc') := ⟨_, _, rfl⟩
  cases state with
  | any =>
    simp only [step, stepAny, pass, h]
    cases symbol with
    | none => rfl
    | some s =>
      cases s with
      | malformed byte => rfl
      | char c =>
        simp only [State.ruling]
        cases punctuation? c with
        | some kind => rfl
        | none => cases opening? c <;> rfl
  | afterZero =>
    simp only [step, stepAfterZero, pass, h]
    cases symbol with
    | none => rfl
    | some s =>
      cases s with
      | malformed byte => rfl
      | char c =>
        simp only [State.ruling]
        by_cases hbinary : c = 'b' ∨ c = 'B'
        · rw [if_pos hbinary, if_pos hbinary]; rfl
        rw [if_neg hbinary, if_neg hbinary]
        by_cases hhex : c = 'x' ∨ c = 'X'
        · rw [if_pos hhex, if_pos hhex]; rfl
        rw [if_neg hhex, if_neg hhex]
        by_cases hseparator : isSeparator c = true
        · rw [if_pos hseparator, if_pos hseparator]; rfl
        rw [if_neg hseparator, if_neg hseparator]
        by_cases hoctal : '0' ≤ c ∧ c ≤ '9'
        · rw [if_pos hoctal, if_pos hoctal]; rfl
        · rw [if_neg hoctal, if_neg hoctal]; rfl
  -- from here on the states read in a loop, of which a pass is the first round
  | space =>
    simp only [step, stepSpace, pass, h]
    cases symbol with
    | none => rw [readWhile_of_stop h (by simp)]; rfl
    | some s =>
      simp only [State.ruling]
      by_cases hs : s.satisfies (fun c => c != '\n' && isBlank c) = true
      · rw [readWhile_of_keep h hs, if_pos hs]; rfl
      · rw [readWhile_of_stop h (by simpa using hs), if_neg hs]; rfl
  | comment =>
    simp only [step, stepComment, pass, h]
    cases symbol with
    | none => rw [readWhile_of_stop h (by simp)]; rfl
    | some s =>
      simp only [State.ruling]
      by_cases hs : s.staysOnLine = true
      · rw [readWhile_of_keep h hs, if_pos hs]; rfl
      · rw [readWhile_of_stop h (by simpa using hs), if_neg hs]; rfl
  | digits base =>
    simp only [step, stepDigits, pass, h]
    cases symbol with
    | none => rw [readWhile_of_stop h (by simp)]; rfl
    | some s =>
      cases s with
      | malformed byte => rw [readWhile_of_stop h (by simp [Symbol.satisfies])]; rfl
      | char c =>
        simp only [State.ruling]
        by_cases hdigit : isDigitIn base c = true
        · rw [readWhile_of_keep h (by exact hdigit), if_pos hdigit]; rfl
        rw [readWhile_of_stop h (by simpa [Symbol.satisfies] using hdigit), if_neg hdigit]
        by_cases hseparator : isSeparator c = true
        · simp only [if_pos hseparator]; rfl
        · simp only [if_neg hseparator]; rfl
  | word kind =>
    simp only [step, stepWord, pass, h]
    cases symbol with
    | none => rw [readWhile_of_stop h (by simp)]; rfl
    | some s =>
      cases s with
      | malformed byte => rw [readWhile_of_stop h (by simp [Symbol.satisfies])]; rfl
      | char c =>
        simp only [State.ruling]
        by_cases hname : isNameChar c = true
        · rw [readWhile_of_keep h (by exact hname), if_pos hname]; rfl
        · rw [readWhile_of_stop h (by simpa [Symbol.satisfies] using hname), if_neg hname]; rfl
  | skipLine =>
    simp only [step, stepSkipLine, pass, h]
    cases symbol with
    | none => rw [readWhile_of_stop h (by simp)]; rfl
    | some s =>
      simp only [State.ruling]
      by_cases hs : s.staysOnLine = true
      · rw [readWhile_of_keep h hs, if_pos hs]; rfl
      · rw [readWhile_of_stop h (by simpa using hs), if_neg hs]; rfl

end

end Scanner

/-! ## Passes lead on -/

/-- A state without what it carries along. -/
inductive Phase where
  | any
  | space
  | comment
  | afterZero
  | digits
  | word
  | skipLine
deriving DecidableEq

/-- The phase of a state. -/
def State.phase : State → Phase
  | .any => .any
  | .space => .space
  | .comment => .comment
  | .afterZero => .afterZero
  | .digits _ => .digits
  | .word _ => .word
  | .skipLine => .skipLine

/-- States that follow each other without a symbol in between are of falling weight. -/
def Phase.weight : Phase → Nat
  | .any => 0
  | .space | .comment | .word | .skipLine => 1
  | .digits => 2
  | .afterZero => 3

/-- No state weighs more than the one behind a zero. -/
theorem Phase.weight_le (phase : Phase) : phase.weight ≤ 3 := by
  cases phase <;> decide

/-- A state weighs as much as its phase. -/
def State.weight (state : State) : Nat :=
  state.phase.weight

/-- Whether a verdict ends the machine or hands over to a state of lower weight. -/
def Verdict.Lowers (state : State) : Verdict → Prop
  | .again => False
  | .goto state' => state'.weight < state.weight
  | .emit kind => kind = .endOfFile ∨ State.any.weight < state.weight
  | .immediate _ => State.skipLine.weight < state.weight
  | .fail _ => False
  | .lineDropped => State.any.weight < state.weight
  | .sourceDropped => True

/-- A state takes a symbol, or else it lowers the weight. -/
theorem takes_or_lowers (state : State) (symbol : Option Symbol) :
    (symbol.isSome ∧ (state.ruling symbol).putsBack = false) ∨
      (state.ruling symbol).verdict.Lowers state := by
  cases symbol with
  | none =>
    right
    cases state <;> simp [State.ruling, Verdict.Lowers, State.weight, State.phase, Phase.weight]
  | some s =>
    have hsome : (some s).isSome = true := rfl
    cases state with
    | any =>
      left
      refine ⟨hsome, ?_⟩
      cases s with
      | malformed byte => rfl
      | char c =>
        simp only [State.ruling]
        split <;> rfl
    | afterZero =>
      cases s with
      | malformed byte => exact .inl ⟨hsome, rfl⟩
      | char c =>
        simp only [State.ruling]
        split
        · exact .inl ⟨hsome, rfl⟩
        split
        · exact .inl ⟨hsome, rfl⟩
        split
        · exact .inr (.inr (by decide))
        split
        · exact .inr (by simp [Verdict.Lowers, State.weight, State.phase, Phase.weight])
        · exact .inl ⟨hsome, rfl⟩
    | digits base =>
      cases s with
      | malformed byte => exact .inl ⟨hsome, rfl⟩
      | char c =>
        simp only [State.ruling]
        split
        · exact .inl ⟨hsome, rfl⟩
        split
        · exact .inr (by simp [Verdict.Lowers, State.weight, State.phase, Phase.weight])
        · exact .inl ⟨hsome, rfl⟩
    | word kind =>
      cases s with
      | malformed byte => exact .inl ⟨hsome, rfl⟩
      | char c =>
        simp only [State.ruling]
        split
        · exact .inl ⟨hsome, rfl⟩
        · exact .inr (.inr (by simp [State.weight, State.phase, Phase.weight]))
    | space =>
      simp only [State.ruling]
      split
      · exact .inl ⟨hsome, rfl⟩
      · exact .inr (.inr (by decide))
    | comment =>
      simp only [State.ruling]
      split
      · exact .inl ⟨hsome, rfl⟩
      · exact .inr (.inr (by decide))
    | skipLine =>
      simp only [State.ruling]
      split
      · exact .inl ⟨hsome, rfl⟩
      · exact .inr (by simp [Verdict.Lowers, State.weight, State.phase, Phase.weight])

namespace Scanner

/-- The other scanner reads on behind the next symbol of this one. -/
def Advances (sc sc' : Scanner) : Prop :=
  ∃ s rest, sc.next.rest = s :: rest ∧ sc'.next = ⟨sc.next.pos.after s, rest⟩

/-- A state and a scanner behind others: further on in the source, or else of lower weight. -/
def Progress (state : State) (sc : Scanner) (state' : State) (sc' : Scanner) : Prop :=
  sc.Advances sc' ∨ sc'.next = sc.next ∧ state'.weight < state.weight

/-- A pass that leads on, unless the source has ended. -/
def LeadsOn (state : State) (sc : Scanner) : Pass → Prop
  | .again sc' => sc.Advances sc'
  | .ends (.goto state' sc') => Progress state sc state' sc'
  | .ends (.emit token sc') => token.kind = .endOfFile ∨ Progress state sc sc'.resume sc'

/-- An undo goes back to where the reading was made. -/
theorem next_undo_read (sc : Scanner) : sc.read.2.undo.next = sc.next := by
  unfold read
  split
  · rfl
  · rfl

/-- At the end of the source a reading stays where it is. -/
theorem next_read_of_end {sc : Scanner} (h : sc.read.1 = none) : sc.read.2.next = sc.next := by
  unfold read at h ⊢
  split
  · rfl
  · simp_all

/-- A reading that finds a symbol goes on behind it. -/
theorem advances_read {sc : Scanner} (h : sc.read.1.isSome) : sc.Advances sc.read.2 := by
  unfold read at h ⊢
  split
  · simp_all
  · exact ⟨_, _, ‹_›, rfl⟩

/-- A pass takes a symbol, or else it lowers the weight. -/
theorem advances_or_lowers (state : State) (sc : Scanner) :
    sc.Advances (sc.read.2.ruled (state.ruling sc.read.1)) ∨
      (sc.read.2.ruled (state.ruling sc.read.1)).next = sc.next ∧
        (state.ruling sc.read.1).verdict.Lowers state := by
  rcases takes_or_lowers state sc.read.1 with ⟨hsome, hkept⟩ | hlowers
  · left
    rw [ruled, hkept]
    exact advances_read hsome
  · unfold ruled
    split
    · exact .inr ⟨next_undo_read sc, hlowers⟩
    · cases hread : sc.read.1 with
      | none =>
        rw [hread] at hlowers
        exact .inr ⟨next_read_of_end hread, hlowers⟩
      | some s => exact .inl (advances_read (by rw [hread]; rfl))

/-- Every pass leads on. -/
theorem leadsOn_pass (state : State) (sc : Scanner) : LeadsOn state sc (sc.pass state) := by
  have hmoves := advances_or_lowers state sc
  rw [pass_eq]
  generalize sc.read.2.ruled (state.ruling sc.read.1) = sc' at hmoves
  generalize (state.ruling sc.read.1).verdict = verdict at hmoves
  cases verdict with
  | again => exact hmoves.resolve_right fun h => h.2
  | goto state' => exact hmoves
  | emit kind =>
    rcases hmoves with hadvances | ⟨hnext, hend | hlowers⟩
    · exact .inr (.inl hadvances)
    · exact .inl hend
    · exact .inr (.inr ⟨hnext, hlowers⟩)
  | immediate base =>
    rw [carryOut, emitImmediate]
    split
    · exact .inr (hmoves.imp_right fun h => ⟨h.1, Nat.lt_of_le_of_lt (Nat.zero_le _) h.2⟩)
    · exact .inr hmoves
  | fail fault => exact .inr (.inl (hmoves.resolve_right fun h => h.2))
  | lineDropped => exact hmoves
  | sourceDropped => exact .inl rfl

section

variable {state : State} {sc sc' : Scanner}

/-- A pass that goes on has taken a symbol. -/
theorem advances_of_again (h : sc.pass state = .again sc') : sc.Advances sc' := by
  have hleads := leadsOn_pass state sc
  rwa [h] at hleads

/-- A state that hands over to another makes progress. -/
theorem progress_of_goto {state' : State} (h : sc.pass state = .ends (.goto state' sc')) :
    Progress state sc state' sc' := by
  have hleads := leadsOn_pass state sc
  rwa [h] at hleads

/-- A token that does not end the source makes progress. -/
theorem progress_of_emit {token : Token} (h : sc.pass state = .ends (.emit token sc'))
    (hkind : token.kind ≠ .endOfFile) : Progress state sc sc'.resume sc' := by
  have hleads := leadsOn_pass state sc
  rw [h] at hleads
  exact hleads.resolve_left hkind

/-- A step is the same behind a pass that goes on. -/
theorem step_of_again (h : sc.pass state = .again sc') : step state sc = step state sc' := by
  have hstep := step_eq_pass state sc
  rwa [h] at hstep

/-- A step ends as its pass does. -/
theorem step_of_ends {result : Step} (h : sc.pass state = .ends result) :
    step state sc = result := by
  have hstep := step_eq_pass state sc
  rwa [h] at hstep

end

/-- What every pass lowers, from the beginning of a source to its end. -/
def measure (sc : Scanner) (state : State) : Nat :=
  4 * sc.remaining + state.weight

/-- Going on takes one symbol of those that remain. -/
theorem Advances.remaining {sc sc' : Scanner} (h : sc.Advances sc') :
    sc'.remaining + 1 = sc.remaining := by
  obtain ⟨s, rest, hrest, hnext⟩ := h
  rw [Scanner.remaining, Scanner.remaining, hrest, hnext]
  rfl

/-- Progress lowers the measure. -/
theorem Progress.measure_lt {state state' : State} {sc sc' : Scanner}
    (h : Progress state sc state' sc') : sc'.measure state' < sc.measure state := by
  have hweight : state'.weight ≤ 3 := state'.phase.weight_le
  unfold measure
  rcases h with hadvances | ⟨hnext, hlower⟩
  · have := hadvances.remaining
    omega
  · have : sc'.remaining = sc.remaining := congrArg (fun c => c.rest.length) hnext
    omega

end Scanner

end AsmLexer

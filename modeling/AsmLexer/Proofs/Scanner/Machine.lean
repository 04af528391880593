import AsmLexer.Proofs.Scanner.Piece

/-!
# The machine takes pieces

A scanner stands at a place of its source: its token begins there, has taken some symbols, and the
others are ahead. Each state, started on such a scanner, delivers the token of the piece that
`State.piece` describes and leaves the scanner behind that piece (`Stands.run_continued`,
`Stands.run_any`). After a fault the gap behind the piece is dropped by the next pull
(`Awaits.pull`), so between two pulls a scanner awaits the symbols behind the gap.
-/

set_option autoImplicit false

namespace AsmLexer

/-- Between two offsets stand the symbols of that many bytes. -/
theorem Cursor.between_append (first : Int) (taken rest : List Symbol) :
    between first (first + (taken.flatMap Symbol.bytes).length) (taken ++ rest) = taken := by
  induction taken generalizing first with
  | nil =>
    cases rest with
    | nil => rfl
    | cons s rest => simp [between]
  | cons s taken ih =>
    have hpos := s.size_pos
    rw [List.flatMap_cons, List.length_append, s.length_bytes, List.cons_append, between,
      if_pos (by omega)]
    have hlast : first + ((s.size + (taken.flatMap Symbol.bytes).length : Nat) : Int) =
        first + s.size + (taken.flatMap Symbol.bytes).length := by omega
    rw [hlast, ih]

/-- Skipping takes the longest run, and the position goes along. -/
theorem Cursor.skipWhile_eq (skip : Symbol → Bool) (pos : Position) (ahead : List Symbol) :
    skipWhile skip pos ahead =
      ⟨pos.afterAll (ahead.takeWhile skip), ahead.dropWhile skip⟩ := by
  induction ahead generalizing pos with
  | nil => rfl
  | cons s rest ih =>
    by_cases hs : skip s
    · rw [skipWhile, if_pos hs, ih, List.takeWhile_cons_of_pos hs, List.dropWhile_cons_of_pos hs,
        Position.afterAll_cons]
    · rw [skipWhile, if_neg hs, List.takeWhile_cons_of_neg hs, List.dropWhile_cons_of_neg hs,
        Position.afterAll_nil]

namespace Scanner

/-- A scanner at whose token starts at a place, has taken some symbols and has the others ahead. -/
structure Stands (sc : Scanner) (pos : Position) (taken ahead : List Symbol) : Prop where
  start : sc.start = ⟨pos, taken ++ ahead⟩
  next : sc.next = ⟨pos.afterAll taken, ahead⟩

section

variable {sc : Scanner} {pos : Position} {taken ahead : List Symbol}

/-- The bytes of the token are those of the symbols taken. -/
theorem Stands.raw (h : sc.Stands pos taken ahead) : sc.raw = taken.flatMap Symbol.bytes := by
  rw [Scanner.raw, Cursor.upTo, h.start, h.next]
  simp only [Position.offset_afterAll, Cursor.between_append]

/-- At the end of a source there is nothing to read. -/
theorem Stands.read_nil (h : sc.Stands pos taken []) :
    ∃ sc', sc.read = (none, sc') ∧ sc'.Stands pos taken [] := by
  refine ⟨{ sc with checkpoint := some sc.next }, ?_, h.start, h.next⟩
  rw [read, h.next]

/-- Reading takes one symbol, and the reading can be undone. -/
theorem Stands.read_cons {s : Symbol} (h : sc.Stands pos taken (s :: ahead)) :
    ∃ sc', sc.read = (some s, sc') ∧ sc'.Stands pos (taken ++ [s]) ahead ∧
      sc'.undo.Stands pos taken (s :: ahead) ∧ sc'.prev.pos = pos.afterAll taken := by
  refine ⟨{ sc with next := ⟨sc.next.pos.after s, ahead⟩, checkpoint := some sc.next }, ?_,
    ⟨?_, ?_⟩, ⟨h.start, h.next⟩, ?_⟩
  · rw [read, h.next]
  · rw [h.start, List.append_assoc, List.singleton_append]
  · rw [h.next, Position.afterAll_append]
    rfl
  · rw [prev, h.next]
    rfl

/-- Skipping takes the run into the token. -/
theorem Stands.skipWhile (h : sc.Stands pos taken ahead) (keep : Symbol → Bool) :
    ({ sc with next := Cursor.skipWhile keep sc.next.pos sc.next.rest } : Scanner).Stands pos
      (taken ++ ahead.takeWhile keep) (ahead.dropWhile keep) := by
  refine ⟨?_, ?_⟩
  · rw [h.start, List.append_assoc, List.takeWhile_append_dropWhile]
  · rw [h.next, Cursor.skipWhile_eq, Position.afterAll_append]

/-- A run may reach the end of the source. -/
theorem Stands.readWhile_nil {keep : Symbol → Bool} (h : sc.Stands pos taken ahead)
    (hend : ahead.dropWhile keep = []) :
    ∃ sc', sc.readWhile keep = (none, sc') ∧
      sc'.Stands pos (taken ++ ahead.takeWhile keep) [] := by
  have hskip := h.skipWhile keep
  rw [hend] at hskip
  exact hskip.read_nil

/-- Otherwise the symbol that ends a run is read with it, and can be put back. -/
theorem Stands.readWhile_cons {keep : Symbol → Bool} {s : Symbol} {rest : List Symbol}
    (h : sc.Stands pos taken ahead) (hend : ahead.dropWhile keep = s :: rest) :
    ∃ sc', sc.readWhile keep = (some s, sc') ∧
      sc'.Stands pos (taken ++ ahead.takeWhile keep ++ [s]) rest ∧
      sc'.undo.Stands pos (taken ++ ahead.takeWhile keep) (s :: rest) ∧
      sc'.prev.pos = pos.afterAll (taken ++ ahead.takeWhile keep) := by
  have hskip := h.skipWhile keep
  rw [hend] at hskip
  exact hskip.read_cons

end

/-- A step emits the token of a piece and leaves the scanner behind it. -/
def Delivers (step : Step) (pos : Position) (p : Piece) : Prop :=
  ∃ sc, step = .emit (p.token pos) sc ∧ sc.Stands (pos.afterAll p.taken) [] p.rest ∧
    sc.recovering = p.fault.isSome

section

variable {sc : Scanner} {pos : Position} {taken ahead : List Symbol}

/-- Emitting ends a token without a fault. -/
theorem Stands.emit (h : sc.Stands pos taken ahead) (kind : Kind) :
    Delivers (sc.emit kind) pos (.whole kind taken ahead) := by
  refine ⟨{ sc with start := sc.next, recovering := false }, ?_, ⟨h.next, h.next⟩, rfl⟩
  rw [Scanner.emit, h.raw, h.start]
  rfl

/-- Failing ends an error token that names some place. -/
theorem Stands.failAt (h : sc.Stands pos taken ahead) (fault : Fault) (before : List Symbol) :
    Delivers (sc.failAt (pos.afterAll before) fault) pos
      ⟨.error, some fault, before, taken, ahead⟩ := by
  refine ⟨{ sc with start := sc.next, recovering := true }, ?_, ⟨h.next, h.next⟩, rfl⟩
  rw [Scanner.failAt, h.raw]
  rfl

/-- Failing at the last reading ends an error token that names its symbol. -/
theorem Stands.fail {bad : Symbol} (h : sc.Stands pos (taken ++ [bad]) ahead)
    (hprev : sc.prev.pos = pos.afterAll taken) (fault : Fault) :
    Delivers (sc.fail fault) pos (.faulty fault taken bad ahead) := by
  rw [Scanner.fail, hprev]
  exact h.failAt fault taken

/-- An immediate value is emitted if it has a digit, and fails otherwise. -/
theorem Stands.emitImmediate (h : sc.Stands pos taken ahead) (base : Nat) :
    Delivers (sc.emitImmediate base) pos (.immediate base taken ahead) := by
  rw [Scanner.emitImmediate, Piece.immediate, h.raw]
  split
  · exact h.emit .immediate
  · have hstart : sc.start.pos = pos.afterAll [] := by rw [h.start, Position.afterAll_nil]
    rw [hstart]
    exact h.failAt _ []

/-! ## The states -/

/-- The state of white space delivers its piece. -/
theorem Stands.step_space (h : sc.Stands pos taken ahead) :
    Delivers (step .space sc) pos (State.space.piece taken ahead) := by
  have hspace : (fun c => c != '\n' && isBlank c) = isSpace := rfl
  rw [step, stepSpace, hspace, State.piece]
  cases hend : ahead.dropWhile (Symbol.satisfies isSpace) with
  | nil =>
    obtain ⟨sc', hread, hstands⟩ := h.readWhile_nil hend
    rw [hread]
    exact hstands.emit .space
  | cons s rest =>
    obtain ⟨sc', hread, -, hundo, -⟩ := h.readWhile_cons hend
    rw [hread]
    exact hundo.emit .space

/-- The state of comments delivers its piece. -/
theorem Stands.step_comment (h : sc.Stands pos taken ahead) :
    Delivers (step .comment sc) pos (State.comment.piece taken ahead) := by
  rw [step, stepComment, State.piece]
  cases hend : ahead.dropWhile Symbol.staysOnLine with
  | nil =>
    obtain ⟨sc', hread, hstands⟩ := h.readWhile_nil hend
    rw [hread]
    exact hstands.emit .comment
  | cons s rest =>
    obtain ⟨sc', hread, -, hundo, -⟩ := h.readWhile_cons hend
    rw [hread]
    exact hundo.emit .comment

/-- The state of words delivers its piece. -/
theorem Stands.step_word (h : sc.Stands pos taken ahead) (kind : Kind) :
    Delivers (step (.word kind) sc) pos ((State.word kind).piece taken ahead) := by
  rw [step, stepWord, State.piece]
  cases hend : ahead.dropWhile (Symbol.satisfies isNameChar) with
  | nil =>
    obtain ⟨sc', hread, hstands⟩ := h.readWhile_nil hend
    rw [hread]
    exact hstands.emit kind
  | cons s rest =>
    obtain ⟨sc', hread, hstands, hundo, hprev⟩ := h.readWhile_cons hend
    rw [hread]
    cases s with
    | malformed byte => exact hstands.fail hprev (.invalidByte byte)
    | char c => exact hundo.emit kind

/-- The state of digits delivers its piece. -/
theorem Stands.step_digits (h : sc.Stands pos taken ahead) (base : Nat) :
    Delivers (step (.digits base) sc) pos ((State.digits base).piece taken ahead) := by
  rw [step, stepDigits, State.piece]
  cases hend : ahead.dropWhile (Symbol.satisfies (isDigitIn base)) with
  | nil =>
    obtain ⟨sc', hread, hstands⟩ := h.readWhile_nil hend
    rw [hread]
    exact hstands.emitImmediate base
  | cons s rest =>
    obtain ⟨sc', hread, hstands, hundo, hprev⟩ := h.readWhile_cons hend
    rw [hread]
    cases s with
    | malformed byte => exact hstands.fail hprev (.invalidByte byte)
    | char c =>
      dsimp only
      split
      · exact hundo.emitImmediate base
      · exact hstands.fail hprev (.illegalDigit c base)

end

/-! ## Runs -/

section

variable {sc : Scanner} {pos : Position} {taken ahead : List Symbol}

/-- A run emits the token of a piece and leaves the scanner behind it. -/
def RunDelivers (result : Token × Scanner) (pos : Position) (p : Piece) : Prop :=
  result.1 = p.token pos ∧ result.2.Stands (pos.afterAll p.taken) [] p.rest ∧
    result.2.recovering = p.fault.isSome

/-- A run whose first step delivers a piece delivers it. -/
theorem Delivers.run {state : State} {p : Piece} (h : Delivers (step state sc) pos p) :
    RunDelivers (run state sc) pos p := by
  obtain ⟨sc', hstep, hstands, hrecovering⟩ := h
  rw [run_of_emit hstep]
  exact ⟨rfl, hstands, hrecovering⟩

/-- The run behind a zero delivers its piece, in this state or in that of digits. -/
theorem Stands.run_afterZero (h : sc.Stands pos taken ahead) :
    RunDelivers (run .afterZero sc) pos (State.afterZero.piece taken ahead) := by
  cases ahead with
  | nil =>
    obtain ⟨sc', hread, hstands⟩ := h.read_nil
    have hstep : step .afterZero sc = sc'.emit .immediate := by
      simp only [step, stepAfterZero, hread]
    apply Delivers.run
    rw [hstep, State.piece]
    exact hstands.emit .immediate
  | cons s rest =>
    obtain ⟨sc', hread, hstands, hundo, hprev⟩ := h.read_cons
    cases s with
    | malformed byte =>
      have hstep : step .afterZero sc = sc'.fail (.invalidByte byte) := by
        simp only [step, stepAfterZero, hread]
      apply Delivers.run
      rw [hstep, State.piece]
      exact hstands.fail hprev (.invalidByte byte)
    | char c =>
      have hstep : step .afterZero sc =
          if c = 'b' ∨ c = 'B' then .goto (.digits 2) sc'
          else if c = 'x' ∨ c = 'X' then .goto (.digits 16) sc'
          else if isSeparator c then sc'.undo.emit .immediate
          else if '0' ≤ c ∧ c ≤ '9' then .goto (.digits 8) sc'.undo
          else sc'.fail (.illegalAfterZero c) := by
        simp only [step, stepAfterZero, hread]
      rw [State.piece]
      by_cases hbinary : c = 'b' ∨ c = 'B'
      · rw [if_pos hbinary] at hstep ⊢
        rw [run_of_goto hstep]
        exact (hstands.step_digits 2).run
      rw [if_neg hbinary] at hstep ⊢
      by_cases hhex : c = 'x' ∨ c = 'X'
      · rw [if_pos hhex] at hstep ⊢
        rw [run_of_goto hstep]
        exact (hstands.step_digits 16).run
      rw [if_neg hhex] at hstep ⊢
      by_cases hseparator : isSeparator c
      · rw [if_pos hseparator] at hstep ⊢
        apply Delivers.run
        rw [hstep]
        exact hundo.emit .immediate
      rw [if_neg hseparator] at hstep ⊢
      by_cases hoctal : '0' ≤ c ∧ c ≤ '9'
      · rw [if_pos hoctal] at hstep ⊢
        -- the digit is put back, so the octal digits begin with it
        rw [run_of_goto hstep]
        exact (hundo.step_digits 8).run
      · rw [if_neg hoctal] at hstep ⊢
        apply Delivers.run
        rw [hstep]
        exact hstands.fail hprev (.illegalAfterZero c)

/-- A state in which a token goes on takes its piece. -/
theorem Stands.run_continued (h : sc.Stands pos taken ahead) {state : State}
    (hrank : state.rank < State.any.rank) :
    RunDelivers (run state sc) pos (state.piece taken ahead) := by
  cases state with
  | any => exact absurd hrank (Nat.lt_irrefl _)
  | skipLine => exact absurd hrank (by decide)
  | space => exact h.step_space.run
  | comment => exact h.step_comment.run
  | afterZero => exact h.run_afterZero
  | digits base => exact (h.step_digits base).run
  | word kind => exact (h.step_word kind).run

/-- At the start of a token the machine takes the piece of the symbols ahead. -/
theorem Stands.run_any (h : sc.Stands pos taken ahead) :
    RunDelivers (run .any sc) pos (State.any.piece taken ahead) := by
  cases ahead with
  | nil =>
    obtain ⟨sc', hread, hstands⟩ := h.read_nil
    have hstep : step .any sc = sc'.emit .endOfFile := by
      simp only [step, stepAny, hread]
    apply Delivers.run
    rw [hstep, State.piece]
    exact hstands.emit .endOfFile
  | cons s rest =>
    obtain ⟨sc', hread, hstands, -, hprev⟩ := h.read_cons
    cases s with
    | malformed byte =>
      have hstep : step .any sc = sc'.fail (.invalidByte byte) := by
        simp only [step, stepAny, hread]
      apply Delivers.run
      rw [hstep, State.piece]
      exact hstands.fail hprev (.invalidByte byte)
    | char c =>
      rw [State.piece]
      cases hkind : punctuation? c with
      | some kind =>
        have hstep : step .any sc = sc'.emit kind := by
          simp only [step, stepAny, hread, hkind]
        apply Delivers.run
        rw [hstep]
        exact hstands.emit kind
      | none =>
        cases hopening : opening? c with
        | some state =>
          have hstep : step .any sc = .goto state sc' := by
            simp only [step, stepAny, hread, hkind, hopening]
          rw [run_of_goto hstep]
          exact hstands.run_continued (rank_lt_of_opening hopening)
        | none =>
          have hstep : step .any sc = sc'.fail (.illegalSymbol c) := by
            simp only [step, stepAny, hread, hkind, hopening]
          apply Delivers.run
          rw [hstep]
          exact hstands.fail hprev (.illegalSymbol c)

end

/-! ## Pulls -/

/-- A scanner whose next token begins at a place with these symbols ahead. What is still to be
dropped of an erroneous line is not counted among them. -/
def Awaits (sc : Scanner) (pos : Position) (symbols : List Symbol) : Prop :=
  ∃ origin gap, sc.Stands origin [] (gap ++ symbols) ∧ pos = origin.afterAll gap ∧
    if sc.recovering then
      (gap ++ symbols).takeWhile Symbol.staysOnLine = gap
    else gap = []

section

variable {sc : Scanner} {pos : Position} {symbols : List Symbol}

/-- Behind a piece the scanner awaits the next one, with the gap dropped. -/
theorem RunDelivers.awaits {result : Token × Scanner} {p : Piece}
    (h : RunDelivers result pos p) :
    result.2.Awaits (pos.afterAll (p.taken ++ p.gap)) p.after := by
  obtain ⟨-, hstands, hrecovering⟩ := h
  refine ⟨pos.afterAll p.taken, p.gap, ?_, Position.afterAll_append _ _ _, ?_⟩
  · rw [p.gap_append_after]
    exact hstands
  · rw [hrecovering, p.gap_append_after, Piece.gap]
    split <;> rfl

/-- A pull hands out the token of the next piece and drops the gap behind it. -/
theorem Awaits.pull (h : sc.Awaits pos symbols) :
    RunDelivers sc.pull pos (nextPiece symbols) := by
  obtain ⟨origin, gap, hstands, rfl, hgap⟩ := h
  rw [Scanner.pull, resume]
  cases hrecovering : sc.recovering with
  | false =>
    rw [hrecovering] at hgap
    simp only [Bool.false_eq_true, if_false] at hgap ⊢
    subst hgap
    exact hstands.run_any
  | true =>
    rw [hrecovering] at hgap
    simp only [if_true] at hgap ⊢
    -- the gap is what the rest of the line drops, so the token begins behind it
    have hafter : (gap ++ symbols).dropWhile Symbol.staysOnLine = symbols := by
      have hsplit := List.takeWhile_append_dropWhile (p := Symbol.staysOnLine) (l := gap ++ symbols)
      rw [hgap] at hsplit
      exact List.append_cancel_left hsplit
    cases symbols with
    | nil =>
      obtain ⟨sc', hread, hend⟩ := hstands.readWhile_nil hafter
      rw [hgap] at hend
      have hstep : step .skipLine sc = { sc' with start := sc'.next }.emit .endOfFile := by
        simp only [step, stepSkipLine, hread]
      apply Delivers.run
      rw [hstep]
      have hstart : ({ sc' with start := sc'.next } : Scanner).Stands (origin.afterAll gap) [] [] :=
        ⟨hend.next, hend.next⟩
      rw [nextPiece_nil]
      exact hstart.emit .endOfFile
    | cons s rest =>
      obtain ⟨sc', hread, -, hundo, -⟩ := hstands.readWhile_cons hafter
      rw [hgap] at hundo
      have hstep : step .skipLine sc = .goto .any { sc'.undo with start := sc'.undo.next } := by
        simp only [step, stepSkipLine, hread]
      rw [run_of_goto hstep]
      have hstart : ({ sc'.undo with start := sc'.undo.next } : Scanner).Stands
          (origin.afterAll gap) [] (s :: rest) := ⟨hundo.next, hundo.next⟩
      exact hstart.run_any

end

end Scanner

end AsmLexer

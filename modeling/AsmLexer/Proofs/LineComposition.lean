import AsmLexer.Proofs.Scanner.Tokens

/-!
# Lines are scanned one by one

A newline in front of other symbols ends a piece in the same way as the end of the source does, so
what stands behind it changes nothing but the rest of the piece (`nextPiece_append_newline`). The
tokens in front of a newline are therefore those of the source that ends there, and the tokens
behind it are those of a source that begins there, moved down (`tokenize_append_newline`).
-/

set_option autoImplicit false

namespace AsmLexer

/-! ## Runs in front of a newline -/

section

variable {α : Type} {keep : α → Bool} {stop : α}

/-- A run that ends in front of a stop does not see what is behind the stop. -/
theorem takeWhile_append_stop (hstop : keep stop = false) (xs more : List α) :
    (xs ++ stop :: more).takeWhile keep = xs.takeWhile keep := by
  induction xs with
  | nil => simp [hstop]
  | cons x xs ih => simp [List.takeWhile_cons, ih]

/-- What is left of a run goes on with the stop and what is behind it. -/
theorem dropWhile_append_stop (hstop : keep stop = false) (xs more : List α) :
    (xs ++ stop :: more).dropWhile keep = xs.dropWhile keep ++ stop :: more := by
  induction xs with
  | nil => simp [hstop]
  | cons x xs ih =>
    rw [List.cons_append, List.dropWhile_cons, List.dropWhile_cons, ih]
    split
    · rfl
    · rfl

end

/-! ## Pieces in front of a newline -/

/-- The same piece in front of further symbols. -/
def Piece.extend (p : Piece) (more : List Symbol) : Piece :=
  { p with rest := p.rest ++ more }

/-- Whether a number is whole does not depend on what is left. -/
theorem extend_immediate (base : Nat) (taken rest more : List Symbol) :
    (Piece.immediate base taken rest).extend more = .immediate base taken (rest ++ more) := by
  unfold Piece.immediate
  dsimp only
  split
  · rfl
  · rfl

section

variable (opened symbols more : List Symbol)

/-- Digits end in front of a newline as they end at the end of a source. -/
theorem digits_piece_append_newline (base : Nat) :
    (State.digits base).piece opened (symbols ++ .char '\n' :: more) =
      ((State.digits base).piece opened symbols).extend (.char '\n' :: more) := by
  have hnewline : Symbol.satisfies (isDigitIn base) (.char '\n') = false := by
    simp [Symbol.satisfies, isDigitIn]
  rw [State.piece, State.piece, takeWhile_append_stop hnewline, dropWhile_append_stop hnewline]
  cases symbols.dropWhile (Symbol.satisfies (isDigitIn base)) with
  | nil =>
    dsimp only
    rw [extend_immediate]
    exact if_pos (by decide)
  | cons s rest =>
    cases s with
    | malformed byte => rfl
    | char c =>
      dsimp only [List.cons_append]
      split
      · rw [extend_immediate]
        rfl
      · rfl

/-- A word ends in front of a newline as it ends at the end of a source. -/
theorem word_piece_append_newline (kind : Kind) :
    (State.word kind).piece opened (symbols ++ .char '\n' :: more) =
      ((State.word kind).piece opened symbols).extend (.char '\n' :: more) := by
  have hnewline : Symbol.satisfies isNameChar (.char '\n') = false := by decide
  rw [State.piece, State.piece, takeWhile_append_stop hnewline, dropWhile_append_stop hnewline]
  cases symbols.dropWhile (Symbol.satisfies isNameChar) with
  | nil => rfl
  | cons s rest => cases s <;> rfl

/-- A zero goes on in front of a newline as it does at the end of a source. -/
theorem afterZero_piece_append_newline :
    State.afterZero.piece opened (symbols ++ .char '\n' :: more) =
      (State.afterZero.piece opened symbols).extend (.char '\n' :: more) := by
  cases symbols with
  | nil =>
    rw [List.nil_append, State.piece, State.piece]
    rfl
  | cons s rest =>
    cases s with
    | malformed byte =>
      rw [List.cons_append, State.piece, State.piece]
      rfl
    | char c =>
      rw [List.cons_append, State.piece, State.piece]
      split
      · exact digits_piece_append_newline _ rest more 2
      split
      · exact digits_piece_append_newline _ rest more 16
      split
      · rfl
      split
      · exact digits_piece_append_newline _ (.char c :: rest) more 8
      · rfl

/-- A token that was begun ends in front of a newline as it ends at the end of a source. -/
theorem State.Continues.piece_append_newline {state : State} (hstate : state.Continues) :
    state.piece opened (symbols ++ .char '\n' :: more) =
      (state.piece opened symbols).extend (.char '\n' :: more) := by
  cases state with
  | any => exact hstate.elim
  | skipLine => exact hstate.elim
  | afterZero => exact afterZero_piece_append_newline opened symbols more
  | digits base => exact digits_piece_append_newline opened symbols more base
  | word kind => exact word_piece_append_newline opened symbols more kind
  | space =>
    have hnewline : Symbol.satisfies isSpace (.char '\n') = false := by decide
    rw [State.piece, State.piece, takeWhile_append_stop hnewline, dropWhile_append_stop hnewline]
    rfl
  | comment =>
    have hnewline : Symbol.staysOnLine (.char '\n') = false := by decide
    rw [State.piece, State.piece, takeWhile_append_stop hnewline, dropWhile_append_stop hnewline]
    rfl

end

/-- What stands behind a newline changes nothing but the rest of a piece in front of it. -/
theorem nextPiece_append_newline {symbols : List Symbol} (hne : symbols ≠ [])
    (more : List Symbol) :
    nextPiece (symbols ++ .char '\n' :: more) =
      (nextPiece symbols).extend (.char '\n' :: more) := by
  obtain ⟨s, rest, rfl⟩ := List.exists_cons_of_ne_nil hne
  rw [List.cons_append, nextPiece, nextPiece]
  cases s with
  | malformed byte =>
    rw [State.piece, State.piece]
    rfl
  | char c =>
    rw [State.piece, State.piece]
    split
    · rfl
    · rename_i hopening
      exact (continues_of_opening hopening).piece_append_newline _ rest more
    · rfl

/-- What an error drops is in front of the newline. -/
theorem gap_extend (p : Piece) (more : List Symbol) :
    (p.extend (.char '\n' :: more)).gap = p.gap := by
  have hnewline : Symbol.staysOnLine (.char '\n') = false := by decide
  unfold Piece.gap Piece.extend
  rw [takeWhile_append_stop hnewline]

/-- Behind what an error drops stands the newline. -/
theorem after_extend (p : Piece) (more : List Symbol) :
    (p.extend (.char '\n' :: more)).after = p.after ++ .char '\n' :: more := by
  have hnewline : Symbol.staysOnLine (.char '\n') = false := by decide
  unfold Piece.after Piece.extend
  rw [dropWhile_append_stop hnewline]
  split
  · rfl
  · rfl

/-! ## Tokens in front of a newline -/

/-- The tokens of some symbols are tokens that do not end the source, and the one that does. -/
theorem exists_init_tokensAt (pos : Position) (symbols : List Symbol) :
    ∃ init, tokensAt pos symbols = init ++ [⟨.endOfFile, pos.afterAll symbols, [], ""⟩] ∧
      (∀ t ∈ init, t.kind ≠ .endOfFile) ∧
      ∀ more, tokensAt pos (symbols ++ .char '\n' :: more) =
        init ++ ⟨.endOfLine, pos.afterAll symbols, [0x0A], ""⟩ ::
          tokensAt ((pos.afterAll symbols).after (.char '\n')) more := by
  induction symbols using pieces_induction generalizing pos with
  | nil =>
    refine ⟨[], tokensAt_nil pos, List.forall_mem_nil _, fun more => ?_⟩
    rw [List.nil_append, tokensAt_of_ne_nil pos (List.cons_ne_nil _ more), nextPiece_newline]
    rfl
  | piece symbols hne ih =>
    have hsplit := nextPiece_split symbols
    -- the tokens in front of the end are the same for every `more`, hence chosen before it
    obtain ⟨init, hinit, hkinds, hmore⟩ :=
      ih (pos.afterAll ((nextPiece symbols).taken ++ (nextPiece symbols).gap))
    have hend : (pos.afterAll ((nextPiece symbols).taken ++ (nextPiece symbols).gap)).afterAll
        (nextPiece symbols).after = pos.afterAll symbols := by
      rw [← Position.afterAll_append, List.append_assoc, hsplit]
    rw [hend] at hinit hmore
    refine ⟨(nextPiece symbols).token pos :: init, ?_, ?_, ?_⟩
    · rw [tokensAt_of_ne_nil pos hne, hinit]
      rfl
    · rw [List.forall_mem_cons]
      exact ⟨(nextPiece_fits hne).1.kind_ne_endOfFile, hkinds⟩
    · intro more
      have hne' := List.append_ne_nil_of_left_ne_nil hne (.char '\n' :: more)
      rw [tokensAt_of_ne_nil pos hne', nextPiece_append_newline hne, gap_extend, after_extend,
        List.cons_append, ← hmore]
      rfl

/-! ## Tokens behind a newline -/

/-- The same token in a source that has this many lines and bytes more in front. -/
def Token.shift (lines bytes : Int) (t : Token) : Token :=
  { t with pos := t.pos.shift lines bytes }

/-- Tokens at a place that is moved are the same tokens, moved. -/
theorem tokensAt_shift (lines bytes : Int) (pos : Position) (symbols : List Symbol) :
    tokensAt (pos.shift lines bytes) symbols =
      (tokensAt pos symbols).map (Token.shift lines bytes) := by
  induction symbols using pieces_induction generalizing pos with
  | nil =>
    rw [tokensAt_nil, tokensAt_nil]
    rfl
  | piece symbols hne ih =>
    have htoken : (nextPiece symbols).token (pos.shift lines bytes) =
        ((nextPiece symbols).token pos).shift lines bytes := by
      unfold Piece.token
      rw [Position.afterAll_shift]
      rfl
    rw [tokensAt_of_ne_nil _ hne, tokensAt_of_ne_nil pos hne, List.map_cons, htoken,
      Position.afterAll_shift, ih]

/-- Behind a newline a source begins anew, moved by its lines and bytes. -/
theorem after_newline_eq_shift {pos : Position} :
    pos.after (.char '\n') = Position.origin.shift pos.line (pos.offset + 1) := by
  rw [Position.after_newline]
  simp only [Position.shift, Position.origin, Int.zero_add, Int.add_comm]

/-- Two sources with a newline between them are scanned one after the other. The newline is a token
where the first source ends, and the tokens of the second source are moved down behind it. -/
theorem tokenize_append_newline (a b : List UInt8) :
    ∃ init stop, tokenize a = init ++ [stop] ∧
      stop.kind = .endOfFile ∧ (∀ t ∈ init, t.kind ≠ .endOfFile) ∧
      tokenize (a ++ 0x0A :: b) =
        init ++ ⟨.endOfLine, stop.pos, [0x0A], ""⟩ ::
          (tokenize b).map (Token.shift stop.pos.line (a.length + 1)) := by
  obtain ⟨init, hinit, hkinds, hmore⟩ := exists_init_tokensAt .origin (Utf8.symbols a)
  have hoffset : (Position.origin.afterAll (Utf8.symbols a)).offset = a.length := by
    rw [Position.offset_afterAll, Utf8.bytes_symbols]
    exact Int.zero_add _
  rw [tokenize_eq, tokenize_eq, tokenize_eq, Utf8.symbols_append_newline]
  refine ⟨init, _, hinit, rfl, hkinds, ?_⟩
  rw [hmore, after_newline_eq_shift, tokensAt_shift, hoffset]

end AsmLexer

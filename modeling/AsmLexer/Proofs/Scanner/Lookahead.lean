import AsmLexer.Proofs.Scanner.Stops
import AsmLexer.Proofs.Scanner.Tokens

/-!
# One symbol of lookahead

A piece is read off the symbols that it takes and the first one behind them, and it would be the
same at the end of the source (`nextPiece_followedBy`). A fault at a symbol does not even depend on
that much: the symbol has been read, and nothing behind it has.
-/

set_option autoImplicit false

namespace AsmLexer

/-! ## Pieces in front of other symbols -/

/-- The same piece in front of other symbols. -/
def Piece.followedBy (p : Piece) (more : List Symbol) : Piece :=
  { p with rest := more }

/-- Whether a fault is found at a symbol that its token takes. A malformed immediate value is found
at what stands behind it. -/
def Fault.atSymbol : Fault → Bool
  | .malformedImmediate _ => false
  | _ => true

/-- Symbols in front of which a piece is the same. A fault at a symbol does not depend on what
follows it. Any other piece has seen the first symbol of its rest, and the end of the source would
have ended it in the same way. -/
def Piece.Settles (p : Piece) (more : List Symbol) : Prop :=
  (∃ fault ∈ p.fault, fault.atSymbol = true) ∨ more = [] ∨ more.head? = p.rest.head?

/-- A state reads its piece off the symbols that it takes and the first one behind them. -/
def State.Foresees (state : State) (opened ahead : List Symbol) : Prop :=
  ∃ run, ahead = run ++ (state.piece opened ahead).rest ∧
    (state.piece opened ahead).taken = opened ++ run ∧
    ∀ more, (state.piece opened ahead).Settles more →
      state.piece opened (run ++ more) = (state.piece opened ahead).followedBy more

/-- Pieces that are the same up to their rest, and that have looked at it. -/
structure Looks (cut : List Symbol → Piece) (opened : List Symbol) : Prop where
  taken_eq : ∀ rest, (cut rest).taken = opened
  rest_eq : ∀ rest, (cut rest).rest = rest
  followedBy_eq : ∀ rest more, (cut rest).followedBy more = cut more
  of_settles : ∀ rest more, (cut rest).Settles more → more = [] ∨ more.head? = rest.head?

/-- A token that ends where it stops has looked at what stopped it. -/
theorem looks_whole (kind : Kind) (opened : List Symbol) : Looks (.whole kind opened) opened where
  taken_eq _ := rfl
  rest_eq _ := rfl
  followedBy_eq _ _ := rfl
  of_settles := by
    rintro rest more (⟨fault, hfault, -⟩ | h)
    · cases hfault
    · exact h

/-- An immediate value has looked at what stopped it. -/
theorem looks_immediate (base : Nat) (opened : List Symbol) :
    Looks (.immediate base opened) opened := by
  unfold Piece.immediate
  dsimp only
  split
  · exact looks_whole .immediate opened
  · refine ⟨fun _ => rfl, fun _ => rfl, fun _ _ => rfl, ?_⟩
    rintro rest more (⟨fault, hfault, hsymbol⟩ | h)
    · cases hfault
      cases hsymbol
    · exact h

section

variable {state : State} {opened rest : List Symbol}

/-- A stop is foreseen: the end, or a symbol of the class that ends the piece. -/
theorem foresees_stop {cut : List Symbol → Piece} {ends : Symbol → Prop}
    (hlooks : Looks cut opened)
    (hcut : ∀ rest, (∀ s ∈ rest.head?, ends s) → state.piece opened rest = cut rest)
    (hrest : ∀ s ∈ rest.head?, ends s) : state.Foresees opened rest := by
  rw [State.Foresees, hcut rest hrest]
  refine ⟨[], (hlooks.rest_eq rest).symm, ?_, fun more hmore => ?_⟩
  · rw [hlooks.taken_eq, List.append_nil]
  · rw [List.nil_append, hlooks.followedBy_eq]
    apply hcut
    rcases hlooks.of_settles rest more hmore with rfl | hhead
    · exact fun s hs => nomatch hs
    · rw [hhead]
      exact hrest

/-- A piece that ends with the next symbol is foreseen. -/
theorem foresees_symbol {s : Symbol} {cut : List Symbol → Piece}
    (htaken : (cut rest).taken = opened ++ [s]) (hrest : (cut rest).rest = rest)
    (hfollowed : ∀ more, (cut rest).followedBy more = cut more)
    (hcut : ∀ rest, state.piece opened (s :: rest) = cut rest) :
    state.Foresees opened (s :: rest) := by
  rw [State.Foresees, hcut rest]
  refine ⟨[s], ?_, htaken, fun more _ => ?_⟩
  · rw [hrest]
    rfl
  · rw [hfollowed]
    exact hcut more

/-- A fault at a symbol does not depend on what follows it. -/
theorem foresees_fault {fault : Fault} {bad : Symbol}
    (h : ∀ rest, state.piece opened (bad :: rest) = .faulty fault opened bad rest) :
    state.Foresees opened (bad :: rest) :=
  foresees_symbol rfl rfl (fun _ => rfl) h

/-- What is foreseen behind a run is foreseen in front of it, by the same state or by another one
that takes the run and hands over. -/
theorem State.Foresees.of_run {state' : State} {run ahead : List Symbol}
    (hrun : ∀ ahead, state.piece opened (run ++ ahead) = state'.piece (opened ++ run) ahead)
    (h : state'.Foresees (opened ++ run) ahead) : state.Foresees opened (run ++ ahead) := by
  obtain ⟨taken, hahead, htaken, hmore⟩ := h
  rw [State.Foresees, hrun]
  refine ⟨run ++ taken, ?_, ?_, fun more hsettles => ?_⟩
  · rw [List.append_assoc, ← hahead]
  · rw [htaken, List.append_assoc]
  · rw [List.append_assoc, hrun]
    exact hmore more hsettles

/-- A state that takes a symbol and hands over foresees what the next one does. -/
theorem State.Foresees.of_symbol {state' : State} {s : Symbol} {ahead : List Symbol}
    (hs : ∀ ahead, state.piece opened (s :: ahead) = state'.piece (opened ++ [s]) ahead)
    (h : state'.Foresees (opened ++ [s]) ahead) : state.Foresees opened (s :: ahead) :=
  @State.Foresees.of_run state opened state' [s] ahead hs h

end

/-! ## All states -/

section

variable (opened ahead : List Symbol)

/-- Space is settled by what stops it. -/
theorem space_foresees : State.space.Foresees opened ahead := by
  obtain ⟨run, stop, rfl, hrun, hstop⟩ := State.space.exists_run ahead
  apply State.Foresees.of_run fun ahead => State.space.piece_append hrun opened ahead
  exact foresees_stop (looks_whole _ _) (fun rest => space_piece_stop) hstop

/-- A comment is settled by what stops it. -/
theorem comment_foresees : State.comment.Foresees opened ahead := by
  obtain ⟨run, stop, rfl, hrun, hstop⟩ := State.comment.exists_run ahead
  apply State.Foresees.of_run fun ahead => State.comment.piece_append hrun opened ahead
  exact foresees_stop (looks_whole _ _) (fun rest => comment_piece_stop) hstop

/-- A word is settled by what stops it. -/
theorem word_foresees (kind : Kind) : (State.word kind).Foresees opened ahead := by
  obtain ⟨run, stop, rfl, hrun, hstop⟩ := (State.word kind).exists_run ahead
  apply State.Foresees.of_run fun ahead => (State.word kind).piece_append hrun opened ahead
  have hends : (∀ s ∈ stop.head?, s.satisfies (fun c => !isNameChar c) = true) →
      (State.word kind).Foresees (opened ++ run) stop :=
    foresees_stop (looks_whole _ _) (fun rest => word_piece_stop kind)
  cases stop with
  | nil => exact hends fun s hs => nomatch hs
  | cons s rest =>
    cases s with
    | malformed byte => exact foresees_fault fun rest => word_piece_malformed kind byte
    | char c =>
      have hc : isNameChar c = false := hstop _ rfl
      apply hends
      rintro _ ⟨⟩
      show (!isNameChar c) = true
      rw [hc]
      rfl

/-- Digits are settled by what stops them. -/
theorem digits_foresees (base : Nat) : (State.digits base).Foresees opened ahead := by
  obtain ⟨run, stop, rfl, hrun, hstop⟩ := (State.digits base).exists_run ahead
  apply State.Foresees.of_run fun ahead => (State.digits base).piece_append hrun opened ahead
  have hends : (∀ s ∈ stop.head?, s.satisfies isSeparator = true) →
      (State.digits base).Foresees (opened ++ run) stop :=
    foresees_stop (looks_immediate _ _) (fun rest => digits_piece_stop base)
  cases stop with
  | nil => exact hends fun s hs => nomatch hs
  | cons s rest =>
    cases s with
    | malformed byte => exact foresees_fault fun rest => digits_piece_malformed base byte
    | char c =>
      have hc : ¬ isDigitIn base c = true := by
        rw [Bool.not_eq_true]
        exact hstop _ rfl
      by_cases hseparator : isSeparator c = true
      · apply hends
        rintro _ ⟨⟩
        exact hseparator
      · exact foresees_fault fun rest => digits_piece_illegal hc hseparator

/-- What comes of a zero is settled by one symbol behind the piece. -/
theorem afterZero_foresees : State.afterZero.Foresees opened ahead := by
  have hends : (∀ s ∈ ahead.head?, s.satisfies isSeparator = true) →
      State.afterZero.Foresees opened ahead :=
    foresees_stop (looks_whole _ _) (fun rest => afterZero_piece_stop)
  cases ahead with
  | nil => exact hends fun s hs => nomatch hs
  | cons s rest =>
    cases s with
    | malformed byte => exact foresees_fault fun rest => afterZero_piece_malformed byte
    | char c =>
      by_cases hbinary : c = 'b' ∨ c = 'B'
      · exact .of_symbol (fun rest => afterZero_piece_binary hbinary) (digits_foresees _ rest 2)
      by_cases hhex : c = 'x' ∨ c = 'X'
      · exact .of_symbol (fun rest => afterZero_piece_hexadecimal hhex) (digits_foresees _ rest 16)
      by_cases hseparator : isSeparator c = true
      · apply hends
        rintro _ ⟨⟩
        exact hseparator
      by_cases hdigit : '0' ≤ c ∧ c ≤ '9'
      · by_cases hoctal : isDigitIn 8 c = true
        · exact .of_symbol (fun rest => afterZero_piece_octal hoctal) (digits_foresees _ rest 8)
        · exact foresees_fault fun rest => afterZero_piece_decimal hdigit.1 hdigit.2 hoctal
      · exact foresees_fault fun rest => afterZero_piece_illegal hbinary hhex hseparator hdigit

/-- A state in which a token goes on is settled by what stops it. -/
theorem State.Continues.foresees {state : State} (hstate : state.Continues) :
    state.Foresees opened ahead := by
  cases state with
  | any => exact hstate.elim
  | skipLine => exact hstate.elim
  | space => exact space_foresees opened ahead
  | comment => exact comment_foresees opened ahead
  | afterZero => exact afterZero_foresees opened ahead
  | digits base => exact digits_foresees opened ahead base
  | word kind => exact word_foresees opened ahead kind

end

/-- Every piece is settled by what it takes and one symbol behind. -/
theorem any_foresees {symbols : List Symbol} (hne : symbols ≠ []) :
    State.any.Foresees [] symbols := by
  obtain ⟨s, rest, rfl⟩ := List.exists_cons_of_ne_nil hne
  cases s with
  | malformed byte => exact foresees_fault fun rest => by rw [State.piece]
  | char c =>
    cases hmark : punctuation? c with
    | some kind =>
      have hpunctuation := punctuation_of_eq_some hmark
      have hcut := nextPiece_of_punctuation hpunctuation
      exact @foresees_symbol .any [] rest (.char c) (.whole kind [.char c]) rfl rfl
        (fun _ => rfl) hcut
    | none =>
      cases hopening : opening? c with
      | some state =>
        have hopens := opens_of_eq_some hmark hopening
        exact .of_symbol (fun rest => nextPiece_of_opens hopens rest)
          ((continues_of_opening hopening).foresees _ rest)
      | none => exact foresees_fault fun rest => nextPiece_of_illegal hmark hopening rest

/-- A piece is the same in front of all symbols that settle it. -/
theorem nextPiece_followedBy {symbols more : List Symbol} (hne : symbols ≠ [])
    (h : (nextPiece symbols).Settles more) :
    nextPiece ((nextPiece symbols).taken ++ more) = (nextPiece symbols).followedBy more := by
  obtain ⟨run, -, htaken, hmore⟩ := any_foresees hne
  have hsame := hmore more h
  rw [List.nil_append] at htaken
  rw [← htaken] at hsame
  exact hsame

/-- The tokens of symbols that begin with a piece which is settled. -/
theorem tokensAt_taken_append {symbols more : List Symbol} (hne : symbols ≠ [])
    (h : (nextPiece symbols).Settles more) (pos : Position) :
    tokensAt pos ((nextPiece symbols).taken ++ more) = (nextPiece symbols).token pos ::
      tokensAt
        (pos.afterAll ((nextPiece symbols).taken ++ ((nextPiece symbols).followedBy more).gap))
        ((nextPiece symbols).followedBy more).after := by
  have hne' := List.append_ne_nil_of_left_ne_nil (nextPiece_fits hne).2 more
  rw [tokensAt_of_ne_nil pos hne', nextPiece_followedBy hne h]
  rfl

end AsmLexer

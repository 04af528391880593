import AsmLexer.Proofs.Grammar.Spelling

/-!
# Runs and stops

A state takes the run of symbols that it keeps (`State.piece_append`), and what it does then is
decided by the first symbol behind the run. There is one equation for each state and each class of
symbols at which it stops, so that no proof has to open the states again.
-/

set_option autoImplicit false

namespace AsmLexer

/-! ## Runs -/

/-- Whether a state takes a symbol and goes on. -/
def State.keeps : State → Symbol → Bool
  | .space => Symbol.satisfies isSpace
  | .comment => Symbol.staysOnLine
  | .digits base => Symbol.satisfies (isDigitIn base)
  | .word _ => Symbol.satisfies isNameChar
  | .any | .afterZero | .skipLine => fun _ => false

/-- A run that a state keeps belongs to what the token has taken. -/
theorem State.piece_append (state : State) {run : List Symbol}
    (hrun : ∀ s ∈ run, state.keeps s = true) (opened ahead : List Symbol) :
    state.piece opened (run ++ ahead) = state.piece (opened ++ run) ahead := by
  have hnone (h : ∀ s ∈ run, false = true) : run = [] := by
    rw [List.eq_nil_iff_forall_not_mem]
    exact fun s hs => Bool.false_ne_true (h s hs)
  have htake : (run ++ ahead).takeWhile state.keeps = run ++ ahead.takeWhile state.keeps :=
    List.takeWhile_append_of_pos hrun
  have hdrop : (run ++ ahead).dropWhile state.keeps = ahead.dropWhile state.keeps :=
    List.dropWhile_append_of_pos hrun
  cases state with
  | any => rw [hnone hrun, List.nil_append, List.append_nil]
  | afterZero => rw [hnone hrun, List.nil_append, List.append_nil]
  | skipLine => rw [hnone hrun, List.nil_append, List.append_nil]
  | space =>
    simp only [State.keeps] at htake hdrop
    rw [State.piece, State.piece, htake, hdrop, List.append_assoc]
  | comment =>
    simp only [State.keeps] at htake hdrop
    rw [State.piece, State.piece, htake, hdrop, List.append_assoc]
  | digits base =>
    simp only [State.keeps] at htake hdrop
    rw [State.piece, State.piece, htake, hdrop, List.append_assoc]
  | word kind =>
    simp only [State.keeps] at htake hdrop
    rw [State.piece, State.piece, htake, hdrop, List.append_assoc]

/-- Symbols are a run that a state keeps and symbols with which it does not go on. -/
theorem State.exists_run (state : State) (ahead : List Symbol) :
    ∃ run stop, ahead = run ++ stop ∧ (∀ s ∈ run, state.keeps s = true) ∧
      ∀ s ∈ stop.head?, state.keeps s = false := by
  have hsplit : ahead.takeWhile state.keeps ++ ahead.dropWhile state.keeps = ahead :=
    List.takeWhile_append_dropWhile
  refine ⟨_, _, hsplit.symm, fun s hs => List.mem_takeWhile_imp hs, fun s hs => ?_⟩
  have hstops := List.head?_dropWhile_not state.keeps ahead
  rw [Option.mem_def.mp hs] at hstops
  exact hstops

/-! ## Stops -/

section

variable {opened rest : List Symbol}

/-- White space ends at what is none. -/
theorem space_piece_stop (hrest : ∀ s ∈ rest.head?, s.satisfies isSpace = false) :
    State.space.piece opened rest = .whole .space opened rest := by
  rw [State.piece]
  cases rest with
  | nil => simp
  | cons s rest => simp [hrest s rfl]

/-- A comment ends at its newline. -/
theorem comment_piece_stop (hrest : ∀ s ∈ rest.head?, s.staysOnLine = false) :
    State.comment.piece opened rest = .whole .comment opened rest := by
  rw [State.piece]
  cases rest with
  | nil => simp
  | cons s rest => simp [hrest s rfl]

/-- Characters that are in no name end a name. -/
theorem word_piece_stop (kind : Kind)
    (hrest : ∀ s ∈ rest.head?, s.satisfies (fun c => !isNameChar c) = true) :
    (State.word kind).piece opened rest = .whole kind opened rest := by
  rw [State.piece]
  cases rest with
  | nil => simp
  | cons s rest =>
    have hs := hrest s rfl
    cases s with
    | malformed byte => cases hs
    | char c =>
      have hc : isNameChar c = false := by simpa [Symbol.satisfies] using hs
      simp [Symbol.satisfies, hc]

/-- A malformed byte behind a word is at fault. -/
theorem word_piece_malformed (kind : Kind) (byte : UInt8) :
    (State.word kind).piece opened (.malformed byte :: rest) =
      .faulty (.invalidByte byte) opened (.malformed byte) rest := by
  rw [State.piece]
  simp [Symbol.satisfies]

/-- Separators end a number. -/
theorem digits_piece_stop (base : Nat)
    (hrest : ∀ s ∈ rest.head?, s.satisfies isSeparator = true) :
    (State.digits base).piece opened rest = .immediate base opened rest := by
  rw [State.piece]
  cases rest with
  | nil => simp
  | cons s rest =>
    have hs := hrest s rfl
    cases s with
    | malformed byte => cases hs
    | char c =>
      have hseparator : isSeparator c = true := hs
      have hdigit : isDigitIn base c = false := by
        rw [← Bool.not_eq_true]
        intro hdigit
        exact not_isNameChar_of_isSeparator hseparator (isNameChar_of_isDigitIn hdigit)
      simp [Symbol.satisfies, hdigit, hseparator]

/-- A malformed byte behind digits is at fault. -/
theorem digits_piece_malformed (base : Nat) (byte : UInt8) :
    (State.digits base).piece opened (.malformed byte :: rest) =
      .faulty (.invalidByte byte) opened (.malformed byte) rest := by
  rw [State.piece]
  simp [Symbol.satisfies]

/-- A character behind digits that is neither a digit nor a separator is at fault. -/
theorem digits_piece_illegal {base : Nat} {c : Char} (hdigit : ¬ isDigitIn base c)
    (hseparator : ¬ isSeparator c) :
    (State.digits base).piece opened (.char c :: rest) =
      .faulty (.illegalDigit c base) opened (.char c) rest := by
  rw [State.piece]
  simp [Symbol.satisfies, hdigit, hseparator]

/-- A zero in front of a separator is a number. -/
theorem afterZero_piece_stop (hrest : ∀ s ∈ rest.head?, s.satisfies isSeparator = true) :
    State.afterZero.piece opened rest = .whole .immediate opened rest := by
  cases rest with
  | nil => rw [State.piece]
  | cons s rest =>
    have hs := hrest s rfl
    cases s with
    | malformed byte => cases hs
    | char c =>
      have hbinary : ¬ (c = 'b' ∨ c = 'B') := by
        rintro (rfl | rfl) <;> exact absurd hs (by decide)
      have hhex : ¬ (c = 'x' ∨ c = 'X') := by
        rintro (rfl | rfl) <;> exact absurd hs (by decide)
      have hseparator : isSeparator c = true := hs
      rw [State.piece, if_neg hbinary, if_neg hhex, if_pos hseparator]

/-- A malformed byte behind a zero is at fault. -/
theorem afterZero_piece_malformed (byte : UInt8) :
    State.afterZero.piece opened (.malformed byte :: rest) =
      .faulty (.invalidByte byte) opened (.malformed byte) rest := by
  rw [State.piece]

/-- Behind a zero, this letter begins binary digits. -/
theorem afterZero_piece_binary {mark : Char} (hmark : mark = 'b' ∨ mark = 'B') :
    State.afterZero.piece opened (.char mark :: rest) =
      (State.digits 2).piece (opened ++ [.char mark]) rest := by
  rw [State.piece, if_pos hmark]

/-- Behind a zero, this letter begins hexadecimal digits. -/
theorem afterZero_piece_hexadecimal {mark : Char} (hmark : mark = 'x' ∨ mark = 'X') :
    State.afterZero.piece opened (.char mark :: rest) =
      (State.digits 16).piece (opened ++ [.char mark]) rest := by
  have hbinary : ¬ (mark = 'b' ∨ mark = 'B') := by
    rcases hmark with rfl | rfl <;> decide
  rw [State.piece, if_neg hbinary, if_pos hmark]

/-- Behind a zero, an octal digit begins octal digits. -/
theorem afterZero_piece_octal {c : Char} (hc : isDigitIn 8 c) :
    State.afterZero.piece opened (.char c :: rest) =
      (State.digits 8).piece (opened ++ [.char c]) rest := by
  have hdigit := isDigitIn_eight_iff.mp hc
  have hrun : ∀ s ∈ [Symbol.char c], (State.digits 8).keeps s = true := by
    rw [List.forall_mem_singleton]
    exact hc
  rw [afterZero_piece_of_digit hdigit.1 (Char.le_trans hdigit.2 (by decide)),
    ← (State.digits 8).piece_append hrun, List.singleton_append]

/-- The other two decimal digits are no octal ones. -/
theorem afterZero_piece_decimal {c : Char} (hlow : '0' ≤ c) (hhigh : c ≤ '9')
    (hc : ¬ isDigitIn 8 c) :
    State.afterZero.piece opened (.char c :: rest) =
      .faulty (.illegalDigit c 8) opened (.char c) rest := by
  have hseparator : ¬ isSeparator c := fun hseparator =>
    not_isNameChar_of_isSeparator hseparator (isNameChar_of_digit hlow hhigh)
  rw [afterZero_piece_of_digit hlow hhigh, digits_piece_illegal hc hseparator]

/-- Behind a zero, any other character is at fault. -/
theorem afterZero_piece_illegal {c : Char} (hbinary : ¬ (c = 'b' ∨ c = 'B'))
    (hhex : ¬ (c = 'x' ∨ c = 'X')) (hseparator : ¬ isSeparator c)
    (hdigit : ¬ ('0' ≤ c ∧ c ≤ '9')) :
    State.afterZero.piece opened (.char c :: rest) =
      .faulty (.illegalAfterZero c) opened (.char c) rest := by
  rw [State.piece, if_neg hbinary, if_neg hhex, if_neg hseparator, if_neg hdigit]

end

end AsmLexer

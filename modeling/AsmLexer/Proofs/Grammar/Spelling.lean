import AsmLexer.Proofs.Grammar.Spans

/-!
# Lexemes and pieces

A lexeme that took in all it could is the next piece of its source (`Lexeme.nextPiece_eq`), and a
piece without a fault is such a lexeme (`exists_lexeme`). Both directions read the equations of the
states, from their two sides.
-/

set_option autoImplicit false

namespace AsmLexer

/-! ## Lexemes are pieces -/

/-- A text that does not begin with a malformed byte. -/
def WellBegun (text : List UInt8) : Prop :=
  ∀ byte more, Utf8.symbols text ≠ .malformed byte :: more

/-- A number is whole if it has a digit. -/
theorem immediate_eq_whole {base : Nat} {cs : List Char} (rest : List Symbol)
    (h : base = 8 ∨ base = 10 ∨ 2 < (Utf8.encode cs).length) :
    Piece.immediate base (cs.map .char) rest = .whole .immediate (cs.map .char) rest := by
  unfold Piece.immediate
  rw [Utf8.bytes_map_char]
  exact if_pos h

section

variable {rest : List UInt8}

/-- Digits in front of a separator or the end are a number. -/
theorem digits_piece_of_allows {base : Nat} {opened cs : List Char}
    (hall : ∀ c ∈ cs, isDigitIn base c) (hallows : Kind.immediate.Allows rest)
    (hbase : base = 8 ∨ base = 10 ∨ 2 < (Utf8.encode (opened ++ cs)).length) :
    (State.digits base).piece (opened.map .char) (Utf8.symbols (Utf8.encode cs ++ rest)) =
      .whole .immediate ((opened ++ cs).map .char) (Utf8.symbols rest) := by
  rw [← immediate_eq_whole _ hbase, List.map_append]
  rcases hallows with rfl | ⟨c, more, hc, rfl⟩
  · rw [digits_piece base hall (not_beginsWith_nil _), Utf8.symbols_nil]
  · have hstops : ¬ BeginsWith (isDigitIn base ·) (String.utf8EncodeChar c ++ more) := by
      rw [beginsWith_encodeChar]
      exact fun hdigit => not_isNameChar_of_isSeparator hc (isNameChar_of_isDigitIn hdigit)
    rw [digits_piece base hall hstops, Utf8.symbols_encodeChar_append]
    exact if_pos hc

/-- A zero in front of a separator or the end is a number. -/
theorem afterZero_piece_of_allows {opened : List Symbol} (hallows : Kind.immediate.Allows rest) :
    State.afterZero.piece opened (Utf8.symbols rest) =
      .whole .immediate opened (Utf8.symbols rest) := by
  rcases hallows with rfl | ⟨c, more, hc, rfl⟩
  · rw [Utf8.symbols_nil, State.piece]
  · have hbinary : ¬ (c = 'b' ∨ c = 'B') := by
      rintro (rfl | rfl) <;> exact absurd hc (by decide)
    have hhex : ¬ (c = 'x' ∨ c = 'X') := by
      rintro (rfl | rfl) <;> exact absurd hc (by decide)
    rw [Utf8.symbols_encodeChar_append, State.piece, if_neg hbinary, if_neg hhex, if_pos hc]

/-- A digit behind a zero makes the number octal. -/
theorem afterZero_piece_of_digit {opened : List Symbol} {c : Char} (hlow : '0' ≤ c)
    (hhigh : c ≤ '9') (ahead : List Symbol) :
    State.afterZero.piece opened (.char c :: ahead) =
      (State.digits 8).piece opened (.char c :: ahead) := by
  have hbinary : ¬ (c = 'b' ∨ c = 'B') := by
    rintro (rfl | rfl) <;> exact absurd hhigh (by decide)
  have hhex : ¬ (c = 'x' ∨ c = 'X') := by
    rintro (rfl | rfl) <;> exact absurd hhigh (by decide)
  have hseparator : ¬ isSeparator c := fun hc =>
    not_isNameChar_of_isSeparator hc (isNameChar_of_digit hlow hhigh)
  rw [State.piece, if_neg hbinary, if_neg hhex, if_neg hseparator, if_pos ⟨hlow, hhigh⟩]

/-- Behind a base marker one digit is enough. -/
theorem marked_piece {base : Nat} (mark : Char) {cs : List Char} (hne : cs ≠ [])
    (hall : ∀ c ∈ cs, isDigitIn base c) (hallows : Kind.immediate.Allows rest) :
    (State.digits base).piece [.char '0', .char mark] (Utf8.symbols (Utf8.encode cs ++ rest)) =
      .whole .immediate (('0' :: mark :: cs).map .char) (Utf8.symbols rest) := by
  have hlength := length_le_length_encode ('0' :: mark :: cs)
  have hpos := List.length_pos_iff.mpr hne
  refine @digits_piece_of_allows rest base ['0', mark] cs hall hallows (.inr (.inr ?_))
  simp only [List.length_cons, List.cons_append, List.nil_append] at hlength ⊢
  omega

/-- A numeral in front of a separator or the end is a token. -/
theorem Numeral.nextPiece_eq {cs : List Char} (h : Numeral cs)
    (hallows : Kind.immediate.Allows rest) :
    nextPiece (Utf8.symbols (Utf8.encode cs ++ rest)) =
      .whole .immediate (cs.map .char) (Utf8.symbols rest) := by
  cases h with
  | zero =>
    rw [symbols_encode_cons, nextPiece_of_opens .zero]
    exact afterZero_piece_of_allows hallows
  | @decimal c cs hfirst hmore =>
    rw [symbols_encode_cons, nextPiece_of_opens (.digit hfirst)]
    exact @digits_piece_of_allows rest 10 [c] cs (fun d hd => isDigitIn_ten_iff.mpr (hmore d hd))
      hallows (by simp)
  | @octal cs hne hmore =>
    rw [symbols_encode_cons, nextPiece_of_opens .zero]
    obtain ⟨d, cs, rfl⟩ := List.exists_cons_of_ne_nil hne
    have hd := hmore d List.mem_cons_self
    rw [symbols_encode_cons, afterZero_piece_of_digit hd.1 (Char.le_trans hd.2 (by decide)),
      ← symbols_encode_cons]
    exact @digits_piece_of_allows rest 8 ['0'] (d :: cs)
      (fun d hd => isDigitIn_eight_iff.mpr (hmore d hd)) hallows (by simp)
  | @binary mark cs hmark hne hmore =>
    rw [symbols_encode_cons, nextPiece_of_opens .zero, symbols_encode_cons, State.piece,
      if_pos hmark]
    exact marked_piece mark hne (fun d hd => isDigitIn_two_iff.mpr (hmore d hd)) hallows
  | @hexadecimal mark cs hmark hne hmore =>
    have hbinary : ¬ (mark = 'b' ∨ mark = 'B') := by
      rcases hmark with rfl | rfl <;> decide
    rw [symbols_encode_cons, nextPiece_of_opens .zero, symbols_encode_cons, State.piece,
      if_neg hbinary, if_pos hmark]
    exact marked_piece mark hne (fun d hd => isDigitIn_sixteen_iff.mpr (hmore d hd)) hallows

/-- A lexeme that took in all it could is the next piece. -/
theorem Lexeme.nextPiece_eq {kind : Kind} {raw : List UInt8} (h : Lexeme kind raw)
    (hends : kind.Ends rest) (hbegun : WellBegun rest) :
    nextPiece (Utf8.symbols (raw ++ rest)) =
      .whole kind (Utf8.symbols raw) (Utf8.symbols rest) := by
  cases h with
  | punctuation hmark =>
    rw [symbols_encode_cons, nextPiece_of_punctuation hmark, Utf8.symbols_encode]
    rfl
  | @space cs hne hall =>
    obtain ⟨c, cs, rfl⟩ := List.exists_cons_of_ne_nil hne
    have hfirst := hall c List.mem_cons_self
    have hmore : ∀ d ∈ cs, isSpace d := fun d hd =>
      isSpace_iff.mpr (hall d (List.mem_cons_of_mem c hd))
    have hstops : ¬ BeginsWith (isSpace ·) rest := by
      simp only [isSpace_iff]
      exact hends.2
    rw [symbols_encode_cons, nextPiece_of_opens (.space hfirst.1 hfirst.2),
      space_piece hmore hstops, Utf8.symbols_encode]
    rfl
  | @comment text htext =>
    rw [List.cons_append, symbols_semicolon, symbols_semicolon, nextPiece_of_opens .comment,
      comment_piece htext hends.1]
    rfl
  | @name _ c cs hinitial hall =>
    have hstops : ¬ BeginsWith (isNameChar ·) rest := by cases hinitial <;> exact hends.2
    rw [symbols_encode_cons, nextPiece_of_opens (.name hinitial), word_piece kind hall hstops,
      Utf8.symbols_encode]
    split
    · exact absurd ‹_› (hbegun _ _)
    · rfl
  | immediate hnumeral => rw [hnumeral.nextPiece_eq hends.1, Utf8.symbols_encode]

end

/-! ## Pieces are lexemes -/

/-- A piece that is a lexeme in front of the rest of its source. -/
def Piece.Spells (p : Piece) (source : List UInt8) : Prop :=
  ∃ kind raw rest, source = raw ++ rest ∧ Lexeme kind raw ∧ kind.Ends rest ∧
    p = .whole kind (Utf8.symbols raw) (Utf8.symbols rest)

/-- A faulty piece has a fault. -/
theorem fault_faulty_ne_none {fault : Fault} {before rest : List Symbol} {bad : Symbol} :
    (Piece.faulty fault before bad rest).fault ≠ none := by
  simp [Piece.faulty]

/-- A number without a fault has a digit. -/
theorem base_of_immediate {base : Nat} {cs : List Char} {rest : List Symbol}
    (h : (Piece.immediate base (cs.map .char) rest).fault = none) :
    base = 8 ∨ base = 10 ∨ 2 < (Utf8.encode cs).length := by
  unfold Piece.immediate at h
  rw [Utf8.bytes_map_char] at h
  by_contra hbase
  rw [if_neg hbase] at h
  cases h

/-- Digits without a fault end before a separator, and there are some behind a base marker. -/
theorem exists_digits {base : Nat} {opened : List Char} {text : List UInt8}
    (h : ((State.digits base).piece (opened.map .char) (Utf8.symbols text)).fault = none) :
    ∃ cs rest, text = Utf8.encode cs ++ rest ∧ (∀ c ∈ cs, isDigitIn base c) ∧
      Kind.immediate.Allows rest ∧
      (base = 8 ∨ base = 10 ∨ 2 < (Utf8.encode (opened ++ cs)).length) := by
  obtain ⟨cs, rest, rfl, hall, hstops⟩ := exists_span (isDigitIn base ·) text
  refine ⟨cs, rest, rfl, hall, ?_⟩
  rw [digits_piece base hall hstops, ← List.map_append] at h
  split at h
  · rename_i hrest
    exact ⟨.inl (Utf8.symbols_eq_nil_iff.mp hrest), base_of_immediate h⟩
  · exact absurd h fault_faulty_ne_none
  · rename_i c more hrest
    split at h
    · rename_i hc
      exact ⟨.inr (beginsWith_iff.mpr ⟨c, hc, by rw [hrest]; rfl⟩), base_of_immediate h⟩
    · exact absurd h fault_faulty_ne_none

/-- Behind a base marker there are digits of the base, unless there is a fault. -/
theorem exists_marked_digits {base : Nat} {mark : Char} {text : List UInt8}
    (hbase : ¬ (base = 8 ∨ base = 10)) (htwo : (Utf8.encode ['0', mark]).length = 2)
    (h : ((State.digits base).piece [.char '0', .char mark] (Utf8.symbols text)).fault = none) :
    ∃ cs rest, text = Utf8.encode cs ++ rest ∧ cs ≠ [] ∧ (∀ c ∈ cs, isDigitIn base c) ∧
      Kind.immediate.Allows rest := by
  obtain ⟨cs, rest, hsplit, hall, hallows, hlength⟩ := @exists_digits base ['0', mark] text h
  refine ⟨cs, rest, hsplit, ?_, hall, hallows⟩
  rintro rfl
  rw [List.append_nil, htwo] at hlength
  omega

/-- A zero, a base marker and digits in a row are one text. -/
theorem append_marked (mark : Char) (cs : List Char) (rest : List UInt8) :
    Utf8.encode ['0'] ++ (Utf8.encode [mark] ++ (Utf8.encode cs ++ rest)) =
      Utf8.encode ('0' :: mark :: cs) ++ rest := by
  rw [append_encode, append_encode]
  rfl

/-- What follows a zero without a fault makes a number with it. -/
theorem exists_numeral_of_zero {text : List UInt8}
    (h : (State.afterZero.piece [.char '0'] (Utf8.symbols text)).fault = none) :
    ∃ cs rest, Utf8.encode ['0'] ++ text = Utf8.encode cs ++ rest ∧ Numeral cs ∧
      Kind.immediate.Allows rest := by
  cases htext : Utf8.symbols text with
  | nil =>
    exact ⟨['0'], text, rfl, .zero, .inl (Utf8.symbols_eq_nil_iff.mp htext)⟩
  | cons s more =>
    rw [htext] at h
    cases s with
    | malformed byte =>
      rw [State.piece] at h
      cases h
    | char c =>
      obtain ⟨rest, rfl, rfl⟩ := exists_text_of_char htext
      rw [State.piece] at h
      split at h
      · rename_i hmark
        have htwo : (Utf8.encode ['0', c]).length = 2 := by rcases hmark with rfl | rfl <;> rfl
        obtain ⟨cs, rest, rfl, hne, hall, hallows⟩ := exists_marked_digits (by decide) htwo h
        exact ⟨'0' :: c :: cs, rest, append_marked c cs rest,
          .binary hmark hne fun d hd => isDigitIn_two_iff.mp (hall d hd), hallows⟩
      split at h
      · rename_i hmark
        have htwo : (Utf8.encode ['0', c]).length = 2 := by rcases hmark with rfl | rfl <;> rfl
        obtain ⟨cs, rest, rfl, hne, hall, hallows⟩ := exists_marked_digits (by decide) htwo h
        exact ⟨'0' :: c :: cs, rest, append_marked c cs rest,
          .hexadecimal hmark hne fun d hd => isDigitIn_sixteen_iff.mp (hall d hd), hallows⟩
      split at h
      · exact ⟨['0'], _, rfl, .zero, .inr (beginsWith_encode_cons.mpr ‹_›)⟩
      rename_i hseparator
      split at h
      · rw [← htext] at h
        obtain ⟨cs, rest', hsplit, hall, hallows, -⟩ := @exists_digits 8 ['0'] _ h
        refine ⟨'0' :: cs, rest', ?_, .octal ?_ fun d hd => ?_, hallows⟩
        · rw [hsplit]
          rfl
        · -- without digits the value would end before `c`, which is no separator
          rintro rfl
          obtain rfl : Utf8.encode [c] ++ rest = rest' := hsplit
          rcases hallows with hnil | hbegins
          · rw [hnil, Utf8.symbols_nil] at htext
            cases htext
          · exact hseparator (beginsWith_encode_cons.mp hbegins)
        · exact isDigitIn_eight_iff.mp (hall d hd)
      · exact absurd h fault_faulty_ne_none

/-- A piece without a fault is a lexeme, whichever state its first character opens. -/
theorem Opens.spells {state : State} {c : Char} (hopens : Opens state c) {text : List UInt8}
    (h : (state.piece [.char c] (Utf8.symbols text)).fault = none) :
    (nextPiece (Utf8.symbols (Utf8.encode [c] ++ text))).Spells (Utf8.encode [c] ++ text) := by
  have hread : nextPiece (Utf8.symbols (Utf8.encode [c] ++ text)) =
      state.piece [.char c] (Utf8.symbols text) := by
    rw [symbols_encode_cons, nextPiece_of_opens hopens]
    rfl
  have hspelled {cs : List Char} {rest : List UInt8} (hnumeral : Numeral cs)
      (hallows : Kind.immediate.Allows rest)
      (hsplit : Utf8.encode [c] ++ text = Utf8.encode cs ++ rest) :
      (nextPiece (Utf8.symbols (Utf8.encode [c] ++ text))).Spells (Utf8.encode [c] ++ text) := by
    refine ⟨.immediate, _, rest, hsplit, .immediate hnumeral, ⟨hallows, trivial⟩, ?_⟩
    rw [hsplit, hnumeral.nextPiece_eq hallows, Utf8.symbols_encode]
  cases hopens with
  | zero =>
    obtain ⟨cs, rest, hsplit, hnumeral, hallows⟩ := exists_numeral_of_zero h
    exact hspelled hnumeral hallows hsplit
  | digit hc =>
    obtain ⟨cs, rest, rfl, hall, hallows, -⟩ := @exists_digits 10 [c] _ h
    exact hspelled (.decimal hc fun d hd => isDigitIn_ten_iff.mp (hall d hd)) hallows
      (append_encode [c] cs rest)
  | space hne hblank =>
    obtain ⟨cs, rest, rfl, hall, hstops⟩ := exists_span (isSpace ·) text
    have hstops' : Kind.space.Exhausts rest := by
      simp only [isSpace_iff] at hstops
      exact hstops
    refine ⟨.space, Utf8.encode (c :: cs), rest, append_encode [c] cs rest, ?_,
      ⟨trivial, hstops'⟩, ?_⟩
    · refine .space (List.cons_ne_nil c cs) (List.forall_mem_cons.mpr ⟨⟨hne, hblank⟩, ?_⟩)
      exact fun d hd => isSpace_iff.mp (hall d hd)
    · rw [hread, space_piece hall hstops, Utf8.symbols_encode]
      rfl
  | @name kind _ hinitial =>
    obtain ⟨cs, rest, rfl, hall, hstops⟩ := exists_span (isNameChar ·) text
    rw [word_piece kind hall hstops] at h hread
    have hends : kind.Ends rest := by
      cases hinitial <;> exact ⟨trivial, hstops⟩
    refine ⟨kind, Utf8.encode (c :: cs), rest, append_encode [c] cs rest, .name hinitial hall,
      hends, ?_⟩
    rw [hread, Utf8.symbols_encode]
    split at h
    · exact absurd h fault_faulty_ne_none
    · rfl
  | comment =>
    obtain ⟨line, rest, rfl, hline, hallows⟩ := exists_line text
    refine ⟨.comment, 0x3B :: line, rest, rfl, .comment hline, ⟨hallows, trivial⟩, ?_⟩
    rw [hread, comment_piece hline hallows, symbols_semicolon]
    rfl

/-- A piece without a fault is a lexeme that took in all it could. -/
theorem exists_lexeme {source : List UInt8} (hne : source ≠ [])
    (h : (nextPiece (Utf8.symbols source)).fault = none) :
    (nextPiece (Utf8.symbols source)).Spells source := by
  cases hsource : Utf8.symbols source with
  | nil => exact absurd (Utf8.symbols_eq_nil_iff.mp hsource) hne
  | cons s more =>
    cases s with
    | malformed byte =>
      rw [hsource, nextPiece, State.piece] at h
      cases h
    | char c =>
      obtain ⟨text, rfl, rfl⟩ := exists_text_of_char hsource
      rw [← hsource]
      cases hmark : punctuation? c with
      | some kind =>
        have hpunctuation := punctuation_of_eq_some hmark
        refine ⟨kind, _, text, rfl, .punctuation hpunctuation, ?_, ?_⟩
        · cases hpunctuation <;> exact ⟨trivial, trivial⟩
        · rw [hsource, nextPiece_of_punctuation hpunctuation, Utf8.symbols_encode]
          rfl
      | none =>
        cases hopening : opening? c with
        | some state =>
          have hopens := opens_of_eq_some hmark hopening
          rw [hsource, nextPiece_of_opens hopens] at h
          exact hopens.spells h
        | none =>
          rw [hsource, nextPiece_of_illegal hmark hopening] at h
          exact absurd h fault_faulty_ne_none

end AsmLexer

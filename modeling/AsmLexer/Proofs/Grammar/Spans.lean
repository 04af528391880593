import AsmLexer.Proofs.Grammar.Opening
import AsmLexer.Proofs.Scanner.Piece

/-!
# Runs in a source

A source is split behind the run of characters of a class with which it begins (`exists_span`), or
behind the rest of a line (`exists_line`). Each state that reads a run is described by an equation
for a source that is split in this way (`word_piece`, `digits_piece`, and so on), and what the first
character of a token decides by one for each case (`nextPiece_of_opens`).
-/

set_option autoImplicit false

namespace AsmLexer

/-! ## Texts with a character in front -/

/-- Encoded texts in a row are one encoded text. -/
theorem append_encode (cs ds : List Char) (rest : List UInt8) :
    Utf8.encode cs ++ (Utf8.encode ds ++ rest) = Utf8.encode (cs ++ ds) ++ rest := by
  rw [Utf8.encode_append, List.append_assoc]

/-- Behind an encoded text the first symbol is its first character. -/
theorem symbols_encode_cons (c : Char) (cs : List Char) (rest : List UInt8) :
    Utf8.symbols (Utf8.encode (c :: cs) ++ rest) =
      .char c :: Utf8.symbols (Utf8.encode cs ++ rest) := by
  rw [Utf8.symbols_encode_append, Utf8.symbols_encode_append]
  rfl

/-- A semicolon is read as itself. -/
theorem symbols_semicolon (rest : List UInt8) :
    Utf8.symbols (0x3B :: rest) = .char ';' :: Utf8.symbols rest :=
  symbols_encode_cons ';' [] rest

/-- Bytes whose first symbol is a character begin with its encoding. -/
theorem exists_text_of_char {text : List UInt8} {c : Char} {more : List Symbol}
    (h : Utf8.symbols text = .char c :: more) :
    ∃ rest, text = Utf8.encode [c] ++ rest ∧ Utf8.symbols rest = more := by
  refine ⟨more.flatMap Symbol.bytes, ?_, @Utf8.symbols_suffix _ [.char c] _ h⟩
  rw [← Utf8.bytes_symbols text, h, Utf8.encode, List.flatMap_singleton]
  rfl

/-- A text has no more characters than bytes. -/
theorem length_le_length_encode (cs : List Char) : cs.length ≤ (Utf8.encode cs).length := by
  induction cs with
  | nil => exact Nat.le_refl 0
  | cons c cs ih =>
    have := c.utf8Size_pos
    rw [Utf8.encode, List.flatMap_cons, List.length_append, String.length_utf8EncodeChar,
      ← Utf8.encode, List.length_cons]
    omega

/-! ## Runs of characters -/

/-- Every text is a run of characters of a class and a text that does not go on with one. -/
theorem exists_span (p : Char → Prop) (text : List UInt8) :
    ∃ cs rest, text = Utf8.encode cs ++ rest ∧ (∀ c ∈ cs, p c) ∧ ¬ BeginsWith p rest := by
  by_cases h : BeginsWith p text
  · obtain ⟨c, more, hc, htext⟩ := h
    obtain ⟨cs, rest, hmore, hall, hstops⟩ := exists_span p more
    refine ⟨c :: cs, rest, ?_, List.forall_mem_cons.mpr ⟨hc, hall⟩, hstops⟩
    rw [htext, hmore, ← List.append_assoc]
    rfl
  · exact ⟨[], text, rfl, List.forall_mem_nil p, h⟩
termination_by text.length
decreasing_by
  have := c.utf8Size_pos
  rw [htext, List.length_append, String.length_utf8EncodeChar]
  omega

section

variable {p : Char → Bool} {cs : List Char} {rest : List UInt8}

/-- Symbols of characters have the properties of the characters. -/
theorem satisfies_map_char (hall : ∀ c ∈ cs, p c) :
    ∀ s ∈ cs.map Symbol.char, Symbol.satisfies p s := by
  intro s hs
  obtain ⟨c, hc, rfl⟩ := List.mem_map.mp hs
  exact hall c hc

/-- Nothing is taken of text that does not begin with a character of the run. -/
theorem takeWhile_of_stops (hstops : ¬ BeginsWith (p ·) rest) :
    (Utf8.symbols rest).takeWhile (Symbol.satisfies p) = [] := by
  rw [beginsWith_iff] at hstops
  cases hrest : Utf8.symbols rest with
  | nil => rfl
  | cons s more =>
    refine List.takeWhile_cons_of_neg fun hs => hstops ?_
    cases s with
    | malformed byte => cases hs
    | char c => exact ⟨c, hs, by rw [hrest]; rfl⟩

/-- A run is taken up to where it stops. -/
theorem takeWhile_span (hall : ∀ c ∈ cs, p c) (hstops : ¬ BeginsWith (p ·) rest) :
    (Utf8.symbols (Utf8.encode cs ++ rest)).takeWhile (Symbol.satisfies p) = cs.map .char := by
  rw [Utf8.symbols_encode_append, List.takeWhile_append_of_pos (satisfies_map_char hall),
    takeWhile_of_stops hstops, List.append_nil]

/-- Behind a run stands what stopped it. -/
theorem dropWhile_span (hall : ∀ c ∈ cs, p c) (hstops : ¬ BeginsWith (p ·) rest) :
    (Utf8.symbols (Utf8.encode cs ++ rest)).dropWhile (Symbol.satisfies p) = Utf8.symbols rest := by
  rw [Utf8.symbols_encode_append, List.dropWhile_append_of_pos (satisfies_map_char hall)]
  have hsplit := @List.takeWhile_append_dropWhile _ (Symbol.satisfies p) (Utf8.symbols rest)
  rwa [takeWhile_of_stops hstops, List.nil_append] at hsplit

end

/-- Every text begins with the rest of a line. -/
theorem exists_line (text : List UInt8) :
    ∃ line rest, text = line ++ rest ∧ 0x0A ∉ line ∧ Kind.comment.Allows rest := by
  refine ⟨text.takeWhile (· != 0x0A), text.dropWhile (· != 0x0A),
    List.takeWhile_append_dropWhile.symm, fun hmem => ?_, ?_⟩
  · have hkept := List.mem_takeWhile_imp hmem
    revert hkept
    decide
  · have hstops := List.head?_dropWhile_not (· != (0x0A : UInt8)) text
    cases hrest : text.dropWhile (· != 0x0A) with
    | nil => exact .inl rfl
    | cons byte more =>
      rw [hrest] at hstops
      simp only [List.head?_cons, bne_eq_false_iff_eq] at hstops
      exact .inr ⟨more, by rw [hstops]⟩

/-! ## What the states take -/

/-- Space is what is blank and no newline. -/
theorem isSpace_iff {c : Char} : isSpace c ↔ c ≠ '\n' ∧ isBlank c := by
  simp [isSpace]

section

variable {opened : List Symbol} {cs : List Char} {rest : List UInt8}

/-- Space takes its whole run. -/
theorem space_piece (hall : ∀ c ∈ cs, isSpace c) (hstops : ¬ BeginsWith (isSpace ·) rest) :
    State.space.piece opened (Utf8.symbols (Utf8.encode cs ++ rest)) =
      .whole .space (opened ++ cs.map .char) (Utf8.symbols rest) := by
  rw [State.piece, takeWhile_span hall hstops, dropWhile_span hall hstops]

/-- A word takes its whole run, unless a malformed byte stands behind it. -/
theorem word_piece (kind : Kind) (hall : ∀ c ∈ cs, isNameChar c)
    (hstops : ¬ BeginsWith (isNameChar ·) rest) :
    (State.word kind).piece opened (Utf8.symbols (Utf8.encode cs ++ rest)) =
      match Utf8.symbols rest with
      | .malformed byte :: more =>
        .faulty (.invalidByte byte) (opened ++ cs.map .char) (.malformed byte) more
      | symbols => .whole kind (opened ++ cs.map .char) symbols := by
  have htake := takeWhile_span hall hstops
  have hdrop := dropWhile_span hall hstops
  cases hrest : Utf8.symbols rest with
  | nil => simp only [State.piece, htake, hdrop, hrest]
  | cons s more => cases s <;> simp only [State.piece, htake, hdrop, hrest]

/-- Digits are a number up to a separator or the end, and a fault at anything else. -/
theorem digits_piece (base : Nat) (hall : ∀ c ∈ cs, isDigitIn base c)
    (hstops : ¬ BeginsWith (isDigitIn base ·) rest) :
    (State.digits base).piece opened (Utf8.symbols (Utf8.encode cs ++ rest)) =
      match Utf8.symbols rest with
      | [] => .immediate base (opened ++ cs.map .char) []
      | .malformed byte :: more =>
        .faulty (.invalidByte byte) (opened ++ cs.map .char) (.malformed byte) more
      | .char c :: more =>
        if isSeparator c then .immediate base (opened ++ cs.map .char) (.char c :: more)
        else .faulty (.illegalDigit c base) (opened ++ cs.map .char) (.char c) more := by
  have htake := takeWhile_span hall hstops
  have hdrop := dropWhile_span hall hstops
  cases hrest : Utf8.symbols rest with
  | nil => simp only [State.piece, htake, hdrop, hrest]
  | cons s more => cases s <;> simp only [State.piece, htake, hdrop, hrest]

/-- A comment takes all up to the end of its line. -/
theorem comment_piece {text : List UInt8} (htext : 0x0A ∉ text)
    (hallows : Kind.comment.Allows rest) :
    State.comment.piece opened (Utf8.symbols (text ++ rest)) =
      .whole .comment (opened ++ Utf8.symbols text) (Utf8.symbols rest) := by
  have hstays : ∀ s ∈ Utf8.symbols text, s.staysOnLine := by
    intro s hs
    rw [Symbol.staysOnLine, bne_iff_ne]
    intro hnewline
    apply htext
    rw [← Utf8.bytes_symbols text, List.mem_flatMap]
    exact ⟨s, hs, (Utf8.newline_mem_bytes_iff hs).mpr hnewline⟩
  have hsplit : Utf8.symbols (text ++ rest) = Utf8.symbols text ++ Utf8.symbols rest ∧
      (Utf8.symbols rest).takeWhile Symbol.staysOnLine = [] ∧
      (Utf8.symbols rest).dropWhile Symbol.staysOnLine = Utf8.symbols rest := by
    rcases hallows with rfl | ⟨more, rfl⟩
    · simp [Utf8.symbols_nil]
    · have hrest := Utf8.symbols_append_newline [] more
      rw [Utf8.symbols_nil, List.nil_append, List.nil_append] at hrest
      rw [Utf8.symbols_append_newline, hrest]
      exact ⟨rfl, rfl, rfl⟩
  rw [State.piece, hsplit.1, List.takeWhile_append_of_pos hstays,
    List.dropWhile_append_of_pos hstays, hsplit.2.1, hsplit.2.2, List.append_nil]

end

/-! ## What the first character decides -/

/-- A punctuation mark is a token by itself. -/
theorem nextPiece_of_punctuation {kind : Kind} {c : Char} (h : Punctuation kind c)
    (ahead : List Symbol) : nextPiece (.char c :: ahead) = .whole kind [.char c] ahead := by
  rw [nextPiece, State.piece]
  cases h <;> rfl

/-- A character that opens a state leaves the rest of the token to it. -/
theorem nextPiece_of_opens {state : State} {c : Char} (h : Opens state c) (ahead : List Symbol) :
    nextPiece (.char c :: ahead) = state.piece [.char c] ahead := by
  have hmark := h.punctuation_eq_none
  have hopening := h.eq_some
  rw [nextPiece, State.piece]
  split
  · simp_all
  · simp_all
  · simp_all

/-- A character that begins no token is at fault. -/
theorem nextPiece_of_illegal {c : Char} (hmark : punctuation? c = none)
    (hopening : opening? c = none) (ahead : List Symbol) :
    nextPiece (.char c :: ahead) = .faulty (.illegalSymbol c) [] (.char c) ahead := by
  rw [nextPiece, State.piece]
  split
  · simp_all
  · simp_all
  · rfl

end AsmLexer

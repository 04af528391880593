import AsmLexer.Proofs.Message
import AsmLexer.Proofs.Scanner.Tokens
import AsmLexer.Proofs.Utf8.Lossy
import AsmLexer.Proofs.Walk

/-!
# Errors stand behind text

A malformed byte is an error wherever it is read, except in a comment, and both an error and a
comment take the rest of their line. So what stands on a line in front of an error is well-formed.
`Piece.Legible` says what a single piece adds to its line, and `exists_offence` follows the lines
over all tokens of a source.
-/

set_option autoImplicit false

namespace AsmLexer

/-- The symbol at which a fault is found. -/
def Fault.symbol : Fault → Symbol
  | .illegalSymbol c | .illegalAfterZero c | .illegalDigit c _ => .char c
  | .malformedImmediate _ => .char '0'
  | .invalidByte byte => .malformed byte

/-- Symbols with which no line goes on. -/
def AtLineEnd (symbols : List Symbol) : Prop :=
  ∀ s ∈ symbols.head?, s = .char '\n'

/-- Behind the rest of a line, the line is at its end. -/
theorem atLineEnd_dropWhile (symbols : List Symbol) :
    AtLineEnd (symbols.dropWhile Symbol.staysOnLine) := by
  intro s hs
  have hstopped := List.head?_dropWhile_not Symbol.staysOnLine symbols
  rw [Option.mem_def.mp hs] at hstopped
  simpa [Symbol.staysOnLine] using hstopped

/-- A piece that is text up to its fault, unless it takes the rest of its line. -/
structure Piece.Legible (p : Piece) : Prop where
  taken : p.fault = none → p.kind ≠ .comment → ∃ cs : List Char, p.taken = cs.map .char
  comment : p.kind = .comment → AtLineEnd p.rest
  before : ∃ cs : List Char, p.before = cs.map .char
  offence : ∀ fault ∈ p.fault, (∃ more, p.taken = p.before ++ fault.symbol :: more) ∧
    fault.symbol.shown ≠ '\r' ∧ '\n' ∉ fault.message.toList

namespace Piece

section

variable {cs : List Char} {rest : List Symbol}

/-- A whole piece of text is legible. -/
theorem whole_legible {kind : Kind} (hkind : kind ≠ .comment) :
    (whole kind (cs.map .char) rest).Legible where
  taken _ _ := ⟨cs, rfl⟩
  comment h := absurd h hkind
  before := ⟨[], rfl⟩
  offence := by simp [whole]

/-- A piece of text up to a symbol that can be shown is legible. -/
theorem faulty_legible {fault : Fault} {bad : Symbol} (hbad : fault.symbol = bad)
    (hshown : bad.shown ≠ '\r') (hmessage : '\n' ∉ fault.message.toList) :
    (faulty fault (cs.map .char) bad rest).Legible where
  taken h := by simp [faulty] at h
  comment h := by simp [faulty] at h
  before := ⟨cs, rfl⟩
  offence := by
    rintro _ ⟨⟩
    rw [hbad]
    exact ⟨⟨[], rfl⟩, hshown, hmessage⟩

/-- A piece of text up to a malformed byte is legible. -/
theorem invalidByte_legible (byte : UInt8) :
    (faulty (.invalidByte byte) (cs.map .char) (.malformed byte) rest).Legible := by
  have hshown : (Symbol.malformed byte).shown ≠ '\r' := by
    show Utf8.replacement ≠ '\r'
    decide
  exact faulty_legible rfl hshown (Fault.newline_notMem_message (by simp))

/-- A number is legible, with its digits or without. -/
theorem immediate_legible {base : Nat} (hzero : base = 8 ∨ base = 10 ∨ cs.head? = some '0')
    (hline : '\n' ∉ cs) : (immediate base (cs.map .char) rest).Legible := by
  unfold immediate
  dsimp only
  split
  · exact whole_legible (by decide)
  · rename_i hshort
    have hhead : cs.head? = some '0' := by
      rcases hzero with rfl | rfl | hhead
      · exact absurd (.inl rfl) hshort
      · exact absurd (.inr (.inl rfl)) hshort
      · exact hhead
    obtain ⟨more, rfl⟩ := List.head?_eq_some_iff.mp hhead
    refine ⟨by simp, by simp, ⟨[], rfl⟩, ?_⟩
    rintro _ ⟨⟩
    have hreturn : '0' ≠ '\r' := by decide
    refine ⟨⟨more.map .char, rfl⟩, hreturn, ?_⟩
    apply Fault.newline_notMem_message
    rintro _ ⟨⟩
    rw [Utf8.bytes_map_char, String.toList_ofList]
    have hshown := Utf8.decodeLossy_encode_append ('0' :: more) []
    rw [List.append_nil, Utf8.decodeLossy_nil, List.append_nil] at hshown
    rwa [hshown]

end

end Piece

/-! ## States -/

/-- A run of symbols with a property of characters is text. -/
theorem exists_chars_takeWhile (keep : Char → Bool) (symbols : List Symbol) :
    ∃ cs : List Char, symbols.takeWhile (Symbol.satisfies keep) = cs.map .char ∧
      ∀ c ∈ cs, keep c = true := by
  induction symbols with
  | nil => exact ⟨[], rfl, List.forall_mem_nil _⟩
  | cons s symbols ih =>
    by_cases hs : s.satisfies keep = true
    · obtain ⟨cs, hcs, hkeep⟩ := ih
      cases s with
      | malformed byte => cases hs
      | char c =>
        refine ⟨c :: cs, ?_, List.forall_mem_cons.mpr ⟨hs, hkeep⟩⟩
        rw [List.takeWhile_cons_of_pos hs, hcs, List.map_cons]
    · refine ⟨[], ?_, List.forall_mem_nil _⟩
      rw [List.takeWhile_cons_of_neg hs]
      rfl

/-- A carriage return is a separator. -/
theorem ne_return_of_not_separator {c : Char} (h : ¬ isSeparator c = true) : c ≠ '\r' := by
  rintro rfl
  exact h (by decide)

section

variable {cs : List Char}

/-- Digits make a legible piece, whatever comes behind them. -/
theorem digits_piece_legible {base : Nat} (hzero : base = 8 ∨ base = 10 ∨ cs.head? = some '0')
    (hline : '\n' ∉ cs) (ahead : List Symbol) :
    ((State.digits base).piece (cs.map .char) ahead).Legible := by
  obtain ⟨ds, hds, hdigits⟩ := exists_chars_takeWhile (isDigitIn base) ahead
  have hmore : '\n' ∉ cs ++ ds := by
    rw [List.mem_append, not_or]
    refine ⟨hline, fun hmem => ?_⟩
    have hnewline := hdigits '\n' hmem
    simp [isDigitIn] at hnewline
  have hzero : base = 8 ∨ base = 10 ∨ (cs ++ ds).head? = some '0' := by
    refine hzero.imp_right (Or.imp_right fun hhead => ?_)
    rw [List.head?_append, hhead]
    rfl
  rw [State.piece, hds, ← List.map_append]
  cases ahead.dropWhile (Symbol.satisfies (isDigitIn base)) with
  | nil => exact Piece.immediate_legible hzero hmore
  | cons s rest =>
    cases s with
    | malformed byte => exact Piece.invalidByte_legible byte
    | char c =>
      dsimp only
      split
      · exact Piece.immediate_legible hzero hmore
      · have hc := ne_return_of_not_separator ‹_›
        exact Piece.faulty_legible rfl hc (Fault.newline_notMem_message (by simp))

/-- A zero makes a legible piece, whatever comes behind it. -/
theorem afterZero_piece_legible (hzero : cs.head? = some '0') (hline : '\n' ∉ cs)
    (ahead : List Symbol) : (State.afterZero.piece (cs.map .char) ahead).Legible := by
  cases ahead with
  | nil =>
    rw [State.piece]
    exact Piece.whole_legible (by decide)
  | cons s rest =>
    cases s with
    | malformed byte =>
      rw [State.piece]
      exact Piece.invalidByte_legible byte
    | char c =>
      -- a base marker stands behind the zero
      have hmarked (base : Nat) (hc : c ≠ '\n') :
          ((State.digits base).piece (cs.map .char ++ [.char c]) rest).Legible := by
        have hfront : cs.map Symbol.char ++ [.char c] = (cs ++ [c]).map .char := by
          rw [List.map_append]
          rfl
        rw [hfront]
        apply digits_piece_legible
        · right
          right
          rw [List.head?_append, hzero]
          rfl
        · rw [List.mem_append, List.mem_singleton, not_or]
          exact ⟨hline, hc.symm⟩
      rw [State.piece]
      split
      · rename_i hbinary
        exact hmarked 2 (by rintro rfl; simp at hbinary)
      split
      · rename_i hhex
        exact hmarked 16 (by rintro rfl; simp at hhex)
      split
      · exact Piece.whole_legible (by decide)
      rename_i hseparator
      split
      · exact digits_piece_legible (.inl rfl) hline _
      · have hc := ne_return_of_not_separator hseparator
        exact Piece.faulty_legible rfl hc (Fault.newline_notMem_message (by simp))

/-- A word makes a legible piece, whatever comes behind it. -/
theorem word_piece_legible {kind : Kind} (hkind : (State.word kind).Continues)
    (ahead : List Symbol) : ((State.word kind).piece (cs.map .char) ahead).Legible := by
  obtain ⟨ds, hds, -⟩ := exists_chars_takeWhile isNameChar ahead
  have hkind : kind ≠ .comment := by
    rcases hkind with rfl | rfl | rfl <;> decide
  rw [State.piece, hds, ← List.map_append]
  cases ahead.dropWhile (Symbol.satisfies isNameChar) with
  | nil => exact Piece.whole_legible hkind
  | cons s rest =>
    cases s with
    | malformed byte => exact Piece.invalidByte_legible byte
    | char c => exact Piece.whole_legible hkind

/-- Space makes a legible piece. -/
theorem space_piece_legible (ahead : List Symbol) :
    (State.space.piece (cs.map .char) ahead).Legible := by
  obtain ⟨ds, hds, -⟩ := exists_chars_takeWhile isSpace ahead
  rw [State.piece, hds, ← List.map_append]
  exact Piece.whole_legible (by decide)

/-- A comment makes a legible piece, though it need not be text. -/
theorem comment_piece_legible (opened ahead : List Symbol) :
    (State.comment.piece opened ahead).Legible := by
  rw [State.piece]
  refine ⟨?_, ?_, ⟨[], rfl⟩, by simp [Piece.whole]⟩
  · intro _ hkind
    exact absurd rfl hkind
  · intro _
    exact atLineEnd_dropWhile ahead

end

/-- Every piece is legible. -/
theorem nextPiece_legible (symbols : List Symbol) : (nextPiece symbols).Legible := by
  rw [nextPiece]
  cases symbols with
  | nil =>
    rw [State.piece]
    exact @Piece.whole_legible [] _ _ (by decide)
  | cons s rest =>
    cases s with
    | malformed byte =>
      rw [State.piece]
      exact @Piece.invalidByte_legible [] _ byte
    | char c =>
      rw [State.piece]
      cases hkind : punctuation? c with
      | some kind =>
        have hkind : kind ≠ .comment := by
          rintro rfl
          unfold punctuation? at hkind
          split at hkind <;> cases hkind
        exact @Piece.whole_legible [c] _ _ hkind
      | none =>
        have hc : '\n' ∉ [c] := by
          rw [List.mem_singleton]
          rintro rfl
          cases hkind
        cases hopening : opening? c with
        | some state =>
          show (state.piece ([c].map .char) rest).Legible
          cases state with
          | space => exact space_piece_legible rest
          | comment => exact comment_piece_legible _ rest
          | afterZero =>
            have hzero : [c].head? = some '0' := by
              unfold opening? at hopening
              repeat' split at hopening
              all_goals simp_all
            exact afterZero_piece_legible hzero hc rest
          | digits base =>
            have hbase := opening?_digits hopening
            exact digits_piece_legible (.inr (.inl hbase)) hc rest
          | word kind => exact word_piece_legible (continues_of_opening hopening) rest
          | any => exact (continues_of_opening hopening).elim
          | skipLine => exact (continues_of_opening hopening).elim
        | none =>
          have hreturn : c ≠ '\r' := by
            rintro rfl
            revert hopening
            decide
          exact @Piece.faulty_legible [] _ (.illegalSymbol c) _ rfl hreturn
            (Fault.newline_notMem_message (by simp))

/-! ## Tokens -/

/-- Some whole lines and then text. -/
def EndsInText (front : List Symbol) : Prop :=
  ∃ (lines : List Symbol) (text : List Char), front = lines ++ text.map .char ∧ '\n' ∉ text ∧
    WholeLines (.char '\n') lines

/-- Behind a newline there is an empty text. -/
theorem endsInText_newline (front : List Symbol) : EndsInText (front ++ [.char '\n']) :=
  ⟨front ++ [.char '\n'], [], (List.append_nil _).symm, List.not_mem_nil, .inr ⟨front, rfl⟩⟩

/-- Text behind text is text. -/
theorem EndsInText.append {front : List Symbol} (h : EndsInText front) (cs : List Char) :
    EndsInText (front ++ cs.map .char) := by
  obtain ⟨lines, text, rfl, htext, hlines⟩ := h
  obtain ⟨more, line, rfl, hline, hmore⟩ := exists_lines '\n' cs
  rcases hmore with rfl | ⟨init, rfl⟩
  · refine ⟨lines, text ++ line, ?_, ?_, hlines⟩
    · simp only [List.map_append, List.append_assoc, List.nil_append]
    · rw [List.mem_append, not_or]
      exact ⟨htext, hline⟩
  · refine ⟨lines ++ text.map .char ++ (init ++ ['\n']).map .char, line, ?_, hline, ?_⟩
    · simp only [List.map_append, List.append_assoc]
    · refine .inr ⟨lines ++ text.map .char ++ init.map .char, ?_⟩
      rw [List.map_append, ← List.append_assoc]
      rfl

/-- An error token of some symbols, with what stands in front of its place. -/
structure Offence (symbols : List Symbol) (t : Token) (fault : Fault) (front : List Symbol) :
    Prop where
  covers : ∃ more, symbols = front ++ fault.symbol :: more
  text : EndsInText front
  pos : t.pos = Position.origin.afterAll front
  message : t.message = fault.message
  symbol_ne_newline : fault.symbol ≠ .char '\n'
  shown_ne_return : fault.symbol.shown ≠ '\r'
  newline_notMem : '\n' ∉ fault.message.toList

section

variable {front symbols : List Symbol}

/-- The next piece offends against its line only behind text. -/
theorem offence_nextPiece (hne : symbols ≠ []) (hfront : EndsInText front ∨ AtLineEnd symbols)
    (hkind : (nextPiece symbols).kind = .error) :
    ∃ fault, Offence (front ++ symbols)
      ((nextPiece symbols).token (Position.origin.afterAll front)) fault
      (front ++ (nextPiece symbols).before) := by
  have hlegible := nextPiece_legible symbols
  obtain ⟨hfits, -⟩ := nextPiece_fits hne
  have hsplit := nextPiece_split symbols
  obtain ⟨fault, hfault⟩ := Option.isSome_iff_exists.mp (hfits.kind_eq_error_iff.mp hkind)
  obtain ⟨⟨more, htaken⟩, hreturn, hmessage⟩ := hlegible.offence fault hfault
  obtain ⟨cs, hcs⟩ := hlegible.before
  have hclean : EndsInText front := by
    refine hfront.resolve_right fun hend => ?_
    obtain ⟨s, rest, rfl⟩ := List.exists_cons_of_ne_nil hne
    have hs : s = .char '\n' := hend s rfl
    rw [hs, nextPiece_newline] at hkind
    cases hkind
  have hnewline : fault.symbol ≠ .char '\n' := by
    have hnotMem := hfits.newline_notMem (by rw [hkind]; decide)
    rw [htaken] at hnotMem
    intro hsymbol
    apply hnotMem
    rw [hsymbol]
    exact List.mem_append_right _ List.mem_cons_self
  refine ⟨fault, ?_, ?_, ?_, ?_, hnewline, hreturn, hmessage⟩
  · refine ⟨more ++ ((nextPiece symbols).gap ++ (nextPiece symbols).after), ?_⟩
    conv_lhs => rw [← hsplit, htaken]
    simp only [List.append_assoc, List.cons_append]
  · rw [hcs]
    exact hclean.append cs
  · exact (Position.afterAll_append _ _ _).symm
  · show ((nextPiece symbols).fault.map Fault.message).getD "" = fault.message
    rw [hfault]
    rfl

/-- Behind a piece its line is text, or it has ended. -/
theorem endsInText_after (hne : symbols ≠ []) (hfront : EndsInText front ∨ AtLineEnd symbols) :
    EndsInText (front ++ ((nextPiece symbols).taken ++ (nextPiece symbols).gap)) ∨
      AtLineEnd (nextPiece symbols).after := by
  have hlegible := nextPiece_legible symbols
  cases hfault : (nextPiece symbols).fault with
  | some fault =>
    right
    rw [Piece.after, hfault]
    exact atLineEnd_dropWhile _
  | none =>
    have hafter : (nextPiece symbols).after = (nextPiece symbols).rest := by
      rw [Piece.after, hfault]
      rfl
    have hgap : (nextPiece symbols).gap = [] := by
      rw [Piece.gap, hfault]
      rfl
    by_cases hcomment : (nextPiece symbols).kind = .comment
    · right
      rw [hafter]
      exact hlegible.comment hcomment
    · left
      obtain ⟨cs, hcs⟩ := hlegible.taken hfault hcomment
      rw [hgap, List.append_nil]
      rcases hfront with hfront | hend
      · rw [hcs]
        exact hfront.append cs
      · obtain ⟨s, rest, rfl⟩ := List.exists_cons_of_ne_nil hne
        have hs : s = .char '\n' := hend s rfl
        rw [hs, nextPiece_newline]
        exact endsInText_newline front

/-- An error token tells of the symbol at its place, where text led up to it. -/
theorem exists_offence (hfront : EndsInText front ∨ AtLineEnd symbols) {t : Token}
    (ht : t ∈ tokensAt (Position.origin.afterAll front) symbols) (hkind : t.kind = .error) :
    ∃ fault before, Offence (front ++ symbols) t fault before := by
  induction symbols using pieces_induction generalizing front with
  | nil =>
    rw [tokensAt_nil, List.mem_singleton] at ht
    rw [ht] at hkind
    cases hkind
  | piece symbols hne ih =>
    rw [tokensAt_of_ne_nil _ hne, List.mem_cons] at ht
    rcases ht with rfl | ht
    · obtain ⟨fault, hoffence⟩ := offence_nextPiece hne hfront hkind
      exact ⟨fault, _, hoffence⟩
    · rw [← Position.afterAll_append] at ht
      have hmore := ih (endsInText_after hne hfront) ht
      rwa [List.append_assoc, List.append_assoc, nextPiece_split] at hmore

end

/-- Every error token of a source stands behind text on its line. -/
theorem exists_offence_of_mem {source : List UInt8} {t : Token} (ht : t ∈ tokenize source)
    (hkind : t.kind = .error) :
    ∃ fault front, Offence (Utf8.symbols source) t fault front := by
  rw [tokenize_eq] at ht
  have hbegin : EndsInText [] := ⟨[], [], rfl, List.not_mem_nil, .inl rfl⟩
  have ht : t ∈ tokensAt (Position.origin.afterAll []) (Utf8.symbols source) := ht
  exact exists_offence (.inl hbegin) ht hkind

end AsmLexer

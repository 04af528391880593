import AsmLexer.Proofs.Extent

/-!
# No memory across tokens

What a token is depends on the symbols ahead, and where it stands on the place it begins at. So
behind any token the scanner goes on like one that begins there: the tokens are those of the rest of
the source, moved to the place at which it begins (`tokenize_resumes`).
-/

set_option autoImplicit false

namespace AsmLexer

/-- The same place in a source that has some text in front, which ends at another place. Only the
first line has its columns moved. -/
def Position.movedTo (p start : Position) : Position :=
  ⟨p.line + (start.line - 1), if p.line = 1 then p.column + (start.column - 1) else p.column,
    p.offset + start.offset⟩

/-- The same token in a source that has some text in front, which ends at a place. -/
def Token.movedTo (t : Token) (start : Position) : Token :=
  { t with pos := t.pos.movedTo start }

namespace Position

/-- The beginning of a source moves to the place where it now begins. -/
theorem origin_movedTo (start : Position) : origin.movedTo start = start := by
  have hline : 1 + (start.line - 1) = start.line := by omega
  have hcolumn : 1 + (start.column - 1) = start.column := by omega
  have hoffset : 0 + start.offset = start.offset := by omega
  simp only [origin, movedTo, if_true, hline, hcolumn, hoffset]

/-- Moving commutes with going on by a symbol. -/
theorem after_movedTo {p : Position} (hp : 1 ≤ p.line) (start : Position) (s : Symbol) :
    (p.after s).movedTo start = (p.movedTo start).after s := by
  by_cases hs : s = .char '\n'
  · have hline : ¬ p.line + 1 = 1 := by omega
    rw [hs, after_newline, after_newline]
    simp only [movedTo, if_neg hline, Position.mk.injEq, true_and]
    omega
  · rw [after_of_ne_newline _ hs, after_of_ne_newline _ hs]
    simp only [movedTo, Position.mk.injEq, true_and]
    split <;> omega

/-- Moving commutes with going on by many symbols. -/
theorem afterAll_movedTo {p : Position} (hp : 1 ≤ p.line) (start : Position) (run : List Symbol) :
    (p.afterAll run).movedTo start = (p.movedTo start).afterAll run := by
  induction run generalizing p with
  | nil => rfl
  | cons s run ih =>
    have hafter : 1 ≤ (p.after s).line := by
      have hle := line_afterAll p [s]
      rw [afterAll_cons, afterAll_nil] at hle
      omega
    rw [afterAll_cons, afterAll_cons, ih hafter, after_movedTo hp]

end Position

/-- From another place on, the tokens are the same ones there. -/
theorem tokensAt_movedTo {p : Position} (hp : 1 ≤ p.line) (start : Position)
    (symbols : List Symbol) :
    tokensAt (p.movedTo start) symbols = (tokensAt p symbols).map (·.movedTo start) := by
  induction symbols using pieces_induction generalizing p with
  | nil =>
    rw [tokensAt_nil, tokensAt_nil]
    rfl
  | piece symbols hne ih =>
    have hafter : 1 ≤ (p.afterAll ((nextPiece symbols).taken ++ (nextPiece symbols).gap)).line := by
      rw [Position.line_afterAll]
      omega
    have htoken : (nextPiece symbols).token (p.movedTo start) =
        ((nextPiece symbols).token p).movedTo start := by
      unfold Piece.token
      rw [← Position.afterAll_movedTo hp]
      rfl
    rw [tokensAt_of_ne_nil _ hne, tokensAt_of_ne_nil p hne, List.map_cons, htoken,
      ← Position.afterAll_movedTo hp, ih hafter]

/-- The tokens of the symbols at any place are those of a source that begins with them, moved
there. -/
theorem tokensAt_eq_map (start : Position) (symbols : List Symbol) :
    tokensAt start symbols = (tokensAt .origin symbols).map (·.movedTo start) := by
  have horigin : 1 ≤ Position.origin.line := Int.le_refl 1
  rw [← tokensAt_movedTo horigin, Position.origin_movedTo]

/-- Behind a token the source is scanned as if it began there. -/
theorem tokenize_resumes {source : List UInt8} {before after : List Token} {t : Token}
    (h : tokenize source = before ++ t :: after) (hkind : t.kind ≠ .endOfFile) :
    ∃ p : Position, p.Exact source ∧
      p.offset = resumeOffset source (startOffset source before) t ∧
      after = (tokenize (source.drop p.offset.toNat)).map (·.movedTo p) := by
  obtain ⟨front, symbols, hoccurs⟩ := exists_occurrence h
  have hne := hoccurs.ne_nil hkind
  have hcovers : Utf8.symbols source =
      (front ++ ((nextPiece symbols).taken ++ (nextPiece symbols).gap)) ++
        (nextPiece symbols).after := by
    rw [hoccurs.covers, List.append_assoc, List.append_assoc, nextPiece_split]
  have hoffset := Position.offset_origin_afterAll
    (front ++ ((nextPiece symbols).taken ++ (nextPiece symbols).gap))
  refine ⟨_, exact_afterAll hcovers, ?_, ?_⟩
  · rw [hoffset, hoccurs.start_eq, hoccurs.token_eq, resumeOffset_token hoccurs.covers hne]
  · rw [hoffset, Int.toNat_natCast, drop_of_symbols hcovers, tokenize_eq,
      Utf8.symbols_suffix hcovers, ← tokensAt_eq_map]
    exact hoccurs.after_of_ne_nil hne

/-- A dollar sign on the second line, where the scanner goes on at the end of the line. -/
theorem tokenize_resumes_dollar :
    let source : List UInt8 := [0x61, 0x0A, 0x24, 0x61, 0x0A, 0x62];
    let before : List Token := [⟨.identifier, ⟨1, 1, 0⟩, [0x61], ""⟩,
      ⟨.endOfLine, ⟨1, 2, 1⟩, [0x0A], ""⟩];
    let t : Token := ⟨.error, ⟨2, 1, 2⟩, [0x24], "illegal symbol '$'"⟩;
    let after : List Token := [⟨.endOfLine, ⟨2, 3, 4⟩, [0x0A], ""⟩,
      ⟨.identifier, ⟨3, 1, 5⟩, [0x62], ""⟩, ⟨.endOfFile, ⟨3, 2, 6⟩, [], ""⟩];
    (tokenize source = before ++ t :: after ∧ t.kind ≠ .endOfFile) ∧
      ∃ p : Position, p.Exact source ∧
        p.offset = resumeOffset source (startOffset source before) t ∧
        after = (tokenize (source.drop p.offset.toNat)).map (·.movedTo p) := by
  intro source before t after
  have htokens : tokenize source = before ++ t :: after := by decide +kernel
  have hkind : t.kind ≠ .endOfFile := by decide
  exact ⟨⟨htokens, hkind⟩, tokenize_resumes htokens hkind⟩

end AsmLexer

import AsmLexer.Proofs.Extent
import AsmLexer.Proofs.Scanner.Lookahead

/-!
# Tokens are read again as themselves

The bytes of a token are read as the symbols of its piece, whatever stood behind them, and a piece
is the same at the end of the source. So a source that holds nothing but the bytes of a token has
this token alone (`tokenize_raw`), and an error is found at the same symbol of it.
-/

set_option autoImplicit false

namespace AsmLexer

/-- A place as it is counted from another one on the same line. -/
def Position.relativeTo (p start : Position) : Position :=
  ⟨1, 1 + (p.column - start.column), p.offset - start.offset⟩

/-- On one line a place is counted from where the run of symbols begins. -/
theorem Position.afterAll_relativeTo (p : Position) {run : List Symbol} (h : .char '\n' ∉ run) :
    (p.afterAll run).relativeTo p = origin.afterAll run := by
  rw [afterAll_of_notMem p h, afterAll_of_notMem origin h]
  simp only [relativeTo, origin, Position.mk.injEq, true_and]
  omega

/-- The symbols that a token takes have this token alone. -/
theorem tokensAt_taken {symbols : List Symbol} (hne : symbols ≠ []) (pos : Position) :
    tokensAt pos (nextPiece symbols).taken =
      [(nextPiece symbols).token pos,
        ⟨.endOfFile, pos.afterAll (nextPiece symbols).taken, [], ""⟩] := by
  have hgap : ((nextPiece symbols).followedBy []).gap = [] := by
    unfold Piece.gap Piece.followedBy
    split
    · rfl
    · rfl
  have hafter : ((nextPiece symbols).followedBy []).after = [] := by
    unfold Piece.after Piece.followedBy
    split
    · rfl
    · rfl
  have htokens := tokensAt_taken_append hne (.inr (.inl rfl)) pos
  rwa [hgap, hafter, tokensAt_nil, List.append_nil] at htokens

/-- The bytes of a token have this token alone, from the first line and column on. -/
theorem tokenize_raw {source : List UInt8} {before after : List Token} {t : Token}
    (h : tokenize source = before ++ t :: after) (hkind : t.kind ≠ .endOfFile) :
    ∃ p stop : Position, p.Exact source ∧ p.offset = startOffset source before ∧
      p.line = t.pos.line ∧ (t.kind ≠ .error → t.pos.relativeTo p = .origin) ∧
      stop.offset = t.raw.length ∧
      tokenize t.raw = [{ t with pos := t.pos.relativeTo p }, ⟨.endOfFile, stop, [], ""⟩] := by
  obtain ⟨front, symbols, hoccurs⟩ := exists_occurrence h
  have hne := hoccurs.ne_nil hkind
  obtain ⟨hexact, hoffset⟩ := hoccurs.exact_start
  have hline := before_newline_notMem hne
  have hpos : t.pos = (Position.origin.afterAll front).afterAll (nextPiece symbols).before := by
    rw [hoccurs.pos_eq, Position.afterAll_append]
  have hrelative : t.pos.relativeTo (Position.origin.afterAll front) =
      Position.origin.afterAll (nextPiece symbols).before := by
    rw [hpos, Position.afterAll_relativeTo _ hline]
  refine ⟨_, Position.origin.afterAll (nextPiece symbols).taken, hexact, hoffset, ?_, ?_, ?_, ?_⟩
  · rw [hpos, Position.line_afterAll _ (nextPiece symbols).before,
      List.count_eq_zero_of_not_mem hline]
    exact (Int.add_zero _).symm
  · intro hproper
    rw [hrelative, hoccurs.before_eq_nil hproper]
    rfl
  · rw [Position.offset_origin_afterAll, ← hoccurs.raw_eq]
  · rw [tokenize_eq, hoccurs.symbols_raw hne, tokensAt_taken hne, hrelative, hoccurs.token_eq]
    rfl

/-- A name on the second line that ends in the first byte of a sequence without its second one. -/
theorem tokenize_raw_truncated :
    let source : List UInt8 := [0x0A, 0x61, 0xC3, 0x28];
    let before : List Token := [⟨.endOfLine, ⟨1, 1, 0⟩, [0x0A], ""⟩];
    let t : Token := ⟨.error, ⟨2, 2, 2⟩, [0x61, 0xC3], "invalid UTF-8 byte \\xC3"⟩;
    let after : List Token := [⟨.endOfFile, ⟨2, 4, 4⟩, [], ""⟩];
    (tokenize source = before ++ t :: after ∧ t.kind ≠ .endOfFile) ∧
      ∃ p stop : Position, p.Exact source ∧ p.offset = startOffset source before ∧
        p.line = t.pos.line ∧ (t.kind ≠ .error → t.pos.relativeTo p = .origin) ∧
        stop.offset = t.raw.length ∧
        tokenize t.raw = [{ t with pos := t.pos.relativeTo p }, ⟨.endOfFile, stop, [], ""⟩] := by
  intro source before t after
  have htokens : tokenize source = before ++ t :: after := by decide +kernel
  have hkind : t.kind ≠ .endOfFile := by decide
  exact ⟨⟨htokens, hkind⟩, tokenize_raw htokens hkind⟩

end AsmLexer

import AsmLexer.Proofs.Scanner.Machine

/-!
# Tokens from symbols

`tokensAt` lists the tokens of some symbols, piece by piece. The scanner hands out the same list
(`tokenize_eq`), so a statement about all tokens of a source is proved by induction on its pieces.
-/

set_option autoImplicit false

namespace AsmLexer

/-- A piece, its gap and what is behind are all the symbols. -/
theorem nextPiece_split (symbols : List Symbol) :
    (nextPiece symbols).taken ++ ((nextPiece symbols).gap ++ (nextPiece symbols).after) =
      symbols := by
  rw [Piece.gap_append_after]
  by_cases h : symbols = []
  · rw [h, nextPiece_nil]
    rfl
  · exact (nextPiece_fits h).1.covers

/-- Every piece takes something of what is ahead. -/
theorem length_after_lt {symbols : List Symbol} (h : symbols ≠ []) :
    (nextPiece symbols).after.length < symbols.length := by
  have htaken := List.length_pos_iff.mpr (nextPiece_fits h).2
  have hsplit := congrArg List.length (nextPiece_split symbols)
  simp only [List.length_append] at hsplit
  omega

/-- The tokens of some symbols, the first of which begins at a place. -/
def tokensAt (pos : Position) (symbols : List Symbol) : List Token :=
  let p := nextPiece symbols
  if _h : symbols = [] then [p.token pos]
  else p.token pos :: tokensAt (pos.afterAll (p.taken ++ p.gap)) p.after
termination_by symbols.length
decreasing_by exact length_after_lt _h

/-- The end of the source is the last token. -/
theorem tokensAt_nil (pos : Position) : tokensAt pos [] = [⟨.endOfFile, pos, [], ""⟩] := by
  rw [tokensAt, dif_pos rfl, nextPiece_nil]
  rfl

/-- The first token is that of the next piece, and the others come behind its gap. -/
theorem tokensAt_of_ne_nil (pos : Position) {symbols : List Symbol} (h : symbols ≠ []) :
    tokensAt pos symbols = (nextPiece symbols).token pos ::
      tokensAt (pos.afterAll ((nextPiece symbols).taken ++ (nextPiece symbols).gap))
        (nextPiece symbols).after := by
  rw [tokensAt, dif_neg h]

/-- What holds at the end of a source and is passed on over each piece holds of all symbols. -/
theorem pieces_induction {P : List Symbol → Prop} (nil : P [])
    (piece : ∀ symbols, symbols ≠ [] → P (nextPiece symbols).after → P symbols)
    (symbols : List Symbol) : P symbols := by
  by_cases h : symbols = []
  · rw [h]
    exact nil
  · exact piece symbols h (pieces_induction nil piece (nextPiece symbols).after)
termination_by symbols.length
decreasing_by exact length_after_lt h

namespace Scanner

/-- All tokens are the one that is pulled and, unless it ends the source, those behind it. -/
theorem drain_eq (sc : Scanner) :
    sc.drain = if sc.pull.1.kind = .endOfFile then ([sc.pull.1], sc.pull.2)
      else (sc.pull.1 :: sc.pull.2.drain.1, sc.pull.2.drain.2) := by
  rw [Scanner.drain]
  split
  rename_i token sc' hpull
  rw [hpull]
  split <;> rfl

/-- Draining a scanner gives the tokens of the symbols it awaits. -/
theorem Awaits.drain {sc : Scanner} {pos : Position} {symbols : List Symbol}
    (h : sc.Awaits pos symbols) : sc.drain.1 = tokensAt pos symbols := by
  induction symbols using pieces_induction generalizing sc pos with
  | nil =>
    have hpull := h.pull
    rw [nextPiece_nil] at hpull
    have hkind : sc.pull.1.kind = .endOfFile := by
      rw [hpull.1]
      rfl
    rw [drain_eq, if_pos hkind, hpull.1, tokensAt_nil]
    rfl
  | piece symbols hne ih =>
    have hpull := h.pull
    have hkind : sc.pull.1.kind ≠ .endOfFile := by
      rw [hpull.1]
      exact (nextPiece_fits hne).1.kind_ne_endOfFile
    rw [drain_eq, if_neg hkind, tokensAt_of_ne_nil pos hne, ih hpull.awaits, hpull.1]

end Scanner

/-- The tokens of a source are those of its symbols. -/
theorem tokenize_eq (source : List UInt8) :
    tokenize source = tokensAt .origin (Utf8.symbols source) := by
  apply Scanner.Awaits.drain
  exact ⟨.origin, [], ⟨rfl, rfl⟩, rfl, rfl⟩

end AsmLexer

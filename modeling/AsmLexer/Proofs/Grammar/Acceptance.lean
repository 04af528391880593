import AsmLexer.Proofs.Grammar.Spelling
import AsmLexer.Proofs.Scanner.Tokens

/-!
# The scanner accepts the lexical grammar

The tokens of a source are without an error exactly if the source can be cut into lexemes, and then
they are its greedy cut (`tokenize_accepts`). Both directions follow the pieces of the source: a cut
is turned into tokens lexeme by lexeme (`Cut.errorFree_tokensAt`), and tokens into a cut piece by
piece (`exists_cut_of_errorFree`).
-/

set_option autoImplicit false

namespace AsmLexer

/-- Tokens none of which is an error. -/
def ErrorFree (tokens : List Token) : Prop :=
  ∀ t ∈ tokens, t.kind ≠ .error

/-- A lexeme is no error. -/
theorem Lexeme.kind_ne_error {kind : Kind} {raw : List UInt8} (h : Lexeme kind raw) :
    kind ≠ .error := by
  rintro rfl
  cases h with
  | punctuation hmark => cases hmark
  | name hinitial => cases hinitial

/-- A lexeme is not empty. -/
theorem Lexeme.ne_nil {kind : Kind} {raw : List UInt8} (h : Lexeme kind raw) : raw ≠ [] := by
  have hencode {cs : List Char} (hne : cs ≠ []) : Utf8.encode cs ≠ [] := by
    have hle := length_le_length_encode cs
    have hpos := List.length_pos_iff.mpr hne
    exact List.length_pos_iff.mp (Nat.lt_of_lt_of_le hpos hle)
  cases h with
  | punctuation => exact hencode (List.cons_ne_nil _ _)
  | space hne => exact hencode hne
  | comment => exact List.cons_ne_nil _ _
  | name => exact hencode (List.cons_ne_nil _ _)
  | immediate hnumeral => exact hencode hnumeral.ne_nil

/-- Text that begins with a lexeme begins well. -/
theorem Lexeme.wellBegun {kind : Kind} {raw : List UInt8} (h : Lexeme kind raw)
    (rest : List UInt8) : WellBegun (raw ++ rest) := by
  have hencode {cs : List Char} (hne : cs ≠ []) : WellBegun (Utf8.encode cs ++ rest) := by
    obtain ⟨c, cs, rfl⟩ := List.exists_cons_of_ne_nil hne
    intro byte more
    rw [symbols_encode_cons]
    simp
  cases h with
  | punctuation => exact hencode (List.cons_ne_nil _ _)
  | space hne => exact hencode hne
  | @comment text =>
    intro byte more
    rw [List.cons_append, symbols_semicolon]
    simp
  | name => exact hencode (List.cons_ne_nil _ _)
  | immediate hnumeral => exact hencode hnumeral.ne_nil

/-- Text that can be cut begins well. -/
theorem Cut.wellBegun {follows : Kind → List UInt8 → Prop} {source : List UInt8}
    {lexemes : List (Kind × List UInt8)} (h : Cut follows source lexemes) : WellBegun source := by
  cases h with
  | done =>
    intro byte more
    rw [Utf8.symbols_nil]
    simp
  | lexeme hlexeme => exact hlexeme.wellBegun _

/-- The tokens of a source that has a greedy cut are its lexemes. -/
theorem Cut.errorFree_tokensAt {source : List UInt8} {lexemes : List (Kind × List UInt8)}
    (h : Cut Kind.Ends source lexemes) (pos : Position) :
    ErrorFree (tokensAt pos (Utf8.symbols source)) ∧
      (tokensAt pos (Utf8.symbols source)).map (fun t => (t.kind, t.raw)) =
        lexemes ++ [(.endOfFile, [])] := by
  induction h generalizing pos with
  | done =>
    rw [Utf8.symbols_nil, tokensAt_nil]
    exact ⟨by simp [ErrorFree], rfl⟩
  | @lexeme kind raw rest more hlexeme hends hcut ih =>
    have hpiece := hlexeme.nextPiece_eq hends hcut.wellBegun
    have hne : Utf8.symbols (raw ++ rest) ≠ [] := by
      rw [ne_eq, Utf8.symbols_eq_nil_iff]
      exact List.append_ne_nil_of_left_ne_nil hlexeme.ne_nil rest
    rw [tokensAt_of_ne_nil pos hne, hpiece]
    obtain ⟨herrors, hmap⟩ := ih (pos.afterAll (Utf8.symbols raw ++ []))
    refine ⟨List.forall_mem_cons.mpr ⟨hlexeme.kind_ne_error, herrors⟩, ?_⟩
    rw [List.map_cons, List.cons_append]
    refine congrArg₂ List.cons ?_ hmap
    rw [Piece.token, Piece.raw, Piece.whole, Utf8.bytes_symbols]

/-- A source without an erroneous token has a greedy cut. -/
theorem exists_cut_of_errorFree {source : List UInt8} {pos : Position}
    (h : ErrorFree (tokensAt pos (Utf8.symbols source))) :
    ∃ lexemes, Cut Kind.Ends source lexemes := by
  by_cases hne : source = []
  · rw [hne]
    exact ⟨[], .done⟩
  have hsymbols : Utf8.symbols source ≠ [] := by
    rw [ne_eq, Utf8.symbols_eq_nil_iff]
    exact hne
  rw [tokensAt_of_ne_nil pos hsymbols, ErrorFree, List.forall_mem_cons] at h
  obtain ⟨hkind, hmore⟩ := h
  have hfault : (nextPiece (Utf8.symbols source)).fault = none := by
    rw [← Option.not_isSome_iff_eq_none, ← (nextPiece_fits hsymbols).1.kind_eq_error_iff]
    exact hkind
  obtain ⟨kind, raw, rest, hsource, hlexeme, hends, hpiece⟩ := exists_lexeme hne hfault
  have hshorter : rest.length < source.length := by
    have := List.length_pos_iff.mpr hlexeme.ne_nil
    rw [hsource, List.length_append]
    omega
  rw [hpiece] at hmore
  obtain ⟨lexemes, hcut⟩ := exists_cut_of_errorFree hmore
  rw [hsource]
  exact ⟨_, .lexeme hlexeme hends hcut⟩
termination_by source.length

/-- A source gives no erroneous token if and only if it can be cut into lexemes. Then the tokens are
the lexemes of the only greedy cut, and the end of the source. -/
theorem tokenize_accepts (source : List UInt8) :
    (ErrorFree (tokenize source) ↔ ∃ lexemes, Cut Kind.Allows source lexemes) ∧
      (ErrorFree (tokenize source) →
        ∃ lexemes, Cut Kind.Ends source lexemes ∧
          (∀ others, Cut Kind.Ends source others → others = lexemes) ∧
          (tokenize source).map (fun t => (t.kind, t.raw)) = lexemes ++ [(.endOfFile, [])]) := by
  rw [tokenize_eq]
  refine ⟨⟨fun h => ?_, fun ⟨lexemes, hcut⟩ => ?_⟩, fun h => ?_⟩
  · obtain ⟨lexemes, hcut⟩ := exists_cut_of_errorFree h
    exact ⟨lexemes, hcut.mono fun _ _ hends => hends.1⟩
  · obtain ⟨greedy, hgreedy⟩ := hcut.exists_greedy
    exact (hgreedy.errorFree_tokensAt .origin).1
  · obtain ⟨lexemes, hcut⟩ := exists_cut_of_errorFree h
    have hmap := (hcut.errorFree_tokensAt .origin).2
    refine ⟨lexemes, hcut, fun others hothers => ?_, hmap⟩
    -- any greedy cut can be read off the same tokens
    have hmap' := (hothers.errorFree_tokensAt .origin).2
    exact List.append_cancel_right (hmap'.symm.trans hmap)

end AsmLexer

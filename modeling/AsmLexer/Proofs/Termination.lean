import AsmLexer.Proofs.LineComposition
import AsmLexer.Proofs.Scanner.Course

/-!
# Scanning comes to an end

The tokens of a source are tokens with bytes of their own and then the one that ends the source, so
there are not many more tokens than bytes (`length_tokensAt_le`). The machine that finds them makes
at most four readings for each byte, and one more, and enters no state twice at the same place
(`tokenize_ends`).
-/

set_option autoImplicit false

namespace AsmLexer

/-- Every symbol has a byte at least. -/
theorem length_flatMap_bytes_ge (symbols : List Symbol) :
    symbols.length ≤ (symbols.flatMap Symbol.bytes).length := by
  induction symbols with
  | nil => exact Nat.le_refl 0
  | cons s symbols ih =>
    have hpos := s.size_pos
    rw [List.flatMap_cons, List.length_append, s.length_bytes, List.length_cons]
    omega

/-- There are no more symbols than bytes. -/
theorem length_symbols_le (source : List UInt8) :
    (Utf8.symbols source).length ≤ source.length := by
  have hle := length_flatMap_bytes_ge (Utf8.symbols source)
  rwa [Utf8.bytes_symbols] at hle

/-- A piece in front of the end has a byte at least. -/
theorem raw_nextPiece_ne_nil {symbols : List Symbol} (h : symbols ≠ []) :
    (nextPiece symbols).raw ≠ [] := by
  have htaken := List.length_pos_iff.mpr (nextPiece_fits h).2
  have hle := length_flatMap_bytes_ge (nextPiece symbols).taken
  exact List.length_pos_iff.mp (Nat.lt_of_lt_of_le htaken hle)

/-- Every token but the one that ends the source has bytes. -/
theorem raw_ne_nil_of_mem_tokensAt {pos : Position} {symbols : List Symbol} {t : Token}
    (h : t ∈ tokensAt pos symbols) (hkind : t.kind ≠ .endOfFile) : t.raw ≠ [] := by
  induction symbols using pieces_induction generalizing pos with
  | nil =>
    rw [tokensAt_nil, List.mem_singleton] at h
    subst h
    exact absurd rfl hkind
  | piece symbols hne ih =>
    rw [tokensAt_of_ne_nil pos hne, List.mem_cons] at h
    rcases h with rfl | h
    · exact raw_nextPiece_ne_nil hne
    · exact ih h

/-- There is a token for each symbol at most, and the one that ends the source. -/
theorem length_tokensAt_le (pos : Position) (symbols : List Symbol) :
    (tokensAt pos symbols).length ≤ symbols.length + 1 := by
  induction symbols using pieces_induction generalizing pos with
  | nil => rw [tokensAt_nil]; exact Nat.le_refl 1
  | piece symbols hne ih =>
    have hshorter := length_after_lt hne
    have hmore := ih (pos.afterAll ((nextPiece symbols).taken ++ (nextPiece symbols).gap))
    rw [tokensAt_of_ne_nil pos hne, List.length_cons]
    omega

/-- A pass ends its state, or the state goes on further in the source. -/
theorem pass_ends_or_advances (state : State) (sc : Scanner) :
    match sc.pass state with
    | .again sc' =>
      sc.step state = sc'.step state ∧ sc.next.pos.offset < sc'.next.pos.offset
    | .ends result => sc.step state = result := by
  cases hpass : sc.pass state with
  | ends result => exact Scanner.step_of_ends hpass
  | again sc' =>
    obtain ⟨s, rest, -, hnext⟩ := Scanner.advances_of_again hpass
    have hpos := s.size_pos
    refine ⟨Scanner.step_of_again hpass, ?_⟩
    rw [hnext, Position.offset_after]
    omega

/-- Scanning a source comes to an end. The token that ends it is the last one, stands at the end of
the source and is empty, and all others have bytes. On the way no state is entered twice at the same
place, and every reading of a state ends it or takes it further. -/
theorem tokenize_ends (source : List UInt8) :
    (∃ (init : List Token) (stop : Token), tokenize source = init ++ [stop] ∧
      (stop.kind = .endOfFile ∧ stop.raw = [] ∧ stop.pos.offset = (source.length : Int)) ∧
      ∀ t ∈ init, t.kind ≠ .endOfFile ∧ t.raw ≠ []) ∧
    (tokenize source).length ≤ source.length + 1 ∧
    (let course := (Scanner.ofSource source).courseToEnd;
      course.result = tokenize source ∧ course.events.count .read ≤ 4 * source.length + 1 ∧
        (dispatches course.events).Nodup) ∧
    ∀ (state : State) (sc : Scanner), match sc.pass state with
      | .again sc' => sc.step state = sc'.step state ∧ sc.next.pos.offset < sc'.next.pos.offset
      | .ends result => sc.step state = result := by
  have hsymbols := length_symbols_le source
  refine ⟨?_, ?_, ⟨?_, ?_, ?_⟩, pass_ends_or_advances⟩
  · obtain ⟨init, hinit, hkinds, -⟩ := exists_init_tokensAt .origin (Utf8.symbols source)
    have hoffset : (Position.origin.afterAll (Utf8.symbols source)).offset = source.length := by
      rw [Position.offset_origin_afterAll, Utf8.bytes_symbols]
    refine ⟨init, _, (tokenize_eq source).trans hinit, ⟨rfl, rfl, hoffset⟩, ?_⟩
    intro t ht
    have hmem : t ∈ tokensAt .origin (Utf8.symbols source) := by
      rw [hinit]
      exact List.mem_append_left _ ht
    exact ⟨hkinds t ht, raw_ne_nil_of_mem_tokensAt hmem (hkinds t ht)⟩
  · have hle := length_tokensAt_le .origin (Utf8.symbols source)
    rw [tokenize_eq]
    omega
  · exact Scanner.result_courseToEnd (Scanner.ofSource source)
  · have hle := Scanner.count_read_courseToEnd (Scanner.ofSource source)
    have hmeasure : (Scanner.ofSource source).measure .any = 4 * (Utf8.symbols source).length := rfl
    have hresume : (Scanner.ofSource source).resume = .any := rfl
    rw [hresume, hmeasure] at hle
    omega
  · exact Scanner.nodup_dispatches_courseToEnd (Scanner.ofSource source)

end AsmLexer

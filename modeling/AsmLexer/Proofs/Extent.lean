import AsmLexer.Proofs.Reconstruction
import AsmLexer.Proofs.Walk

/-!
# Where tokens stand

A token does not say where its bytes begin, since an error names the place at which it was found.
But tokens follow one another: each one begins where the bytes of the one before it end, or behind
an error with the newline that comes next (`resumeOffset`). So the offset at which a token begins is
read off the tokens in front of it (`startOffset`). `Occurrence` says which symbols stand in front
of a token and from which ones it is taken, and every token has one (`exists_occurrence`). What is
passed on from one piece to the next holds there, too (`exists_occurrence_of_step`).
-/

set_option autoImplicit false

namespace AsmLexer

/-- The offset at which the token behind this one begins, if this one begins at an offset. It is the
end of its bytes, or behind an error the first newline from there on, or else the end of the
source. -/
def resumeOffset (source : List UInt8) (start : Nat) (t : Token) : Nat :=
  let stop := start + t.raw.length
  if t.kind = .error then stop + ((source.drop stop).takeWhile (· != 0x0A)).length else stop

/-- The offset at which the bytes of the token behind these ones begin. -/
def startOffset (source : List UInt8) (before : List Token) : Nat :=
  before.foldl (resumeOffset source) 0

/-- A token of a source that begins at an offset and the tokens behind it, with the symbols in front
of its bytes and those from which it is taken. -/
structure Occurrence (source : List UInt8) (start : Nat) (t : Token) (after : List Token)
    (front symbols : List Symbol) : Prop where
  covers : Utf8.symbols source = front ++ symbols
  start_eq : start = (front.flatMap Symbol.bytes).length
  token_eq : t = (nextPiece symbols).token (Position.origin.afterAll front)
  after_of_nil : symbols = [] → after = []
  after_of_ne_nil : symbols ≠ [] → after =
    tokensAt (Position.origin.afterAll
      (front ++ ((nextPiece symbols).taken ++ (nextPiece symbols).gap))) (nextPiece symbols).after

/-- Whether what holds of the symbols in front of a piece and of those from which it is taken is
passed on to the next one. -/
def PassedOn (P : List Symbol → List Symbol → Prop) : Prop :=
  ∀ ⦃front symbols⦄, symbols ≠ [] → P front symbols →
    P (front ++ ((nextPiece symbols).taken ++ (nextPiece symbols).gap)) (nextPiece symbols).after

/-! ## The line behind an error -/

/-- The bytes up to the first newline are those of the symbols up to it. -/
theorem takeWhile_bytes {symbols : List Symbol} (h : Readable symbols) :
    (symbols.flatMap Symbol.bytes).takeWhile (· != 0x0A) =
      (symbols.takeWhile Symbol.staysOnLine).flatMap Symbol.bytes := by
  induction symbols with
  | nil => rfl
  | cons s symbols ih =>
    have hmore : Readable symbols := fun s hs => h s (List.mem_cons_of_mem _ hs)
    by_cases hs : s = .char '\n'
    · rw [hs]
      rfl
    · have hstays : s.staysOnLine = true := bne_iff_ne.mpr hs
      have hbytes : ∀ byte ∈ s.bytes, (byte != 0x0A) = true := by
        intro byte hbyte
        rw [bne_iff_ne]
        rintro rfl
        exact hs ((h s List.mem_cons_self).mp hbyte)
      rw [List.flatMap_cons, List.takeWhile_append_of_pos hbytes, ih hmore,
        List.takeWhile_cons_of_pos hstays, List.flatMap_cons]

/-- What is left of the symbols of a source is readable. -/
theorem readable_of_symbols {source : List UInt8} {before after : List Symbol}
    (h : Utf8.symbols source = before ++ after) : Readable after := by
  have hread : Readable (before ++ after) := by
    rw [← h]
    exact fun s hs => Utf8.newline_mem_bytes_iff hs
  exact hread.of_suffix

/-- The place that a token names is in front of its bytes or in them. -/
theorem before_isPrefix {symbols : List Symbol} (hne : symbols ≠ []) :
    (nextPiece symbols).before <+: (nextPiece symbols).taken := by
  have hfits := (nextPiece_fits hne).1
  cases hfault : (nextPiece symbols).fault with
  | none =>
    rw [hfits.before_of_none hfault]
    exact List.nil_prefix
  | some fault =>
    obtain ⟨bad, more, htaken⟩ := hfits.before_of_some (by rw [hfault]; rfl)
    rw [htaken]
    exact List.prefix_append _ _

/-- A fault is found on the line on which its token begins. -/
theorem before_newline_notMem {symbols : List Symbol} (hne : symbols ≠ []) :
    .char '\n' ∉ (nextPiece symbols).before := by
  have hfits := (nextPiece_fits hne).1
  by_cases hkind : (nextPiece symbols).kind = .endOfLine
  · have hnone : (nextPiece symbols).fault = none := by
      rw [← Option.not_isSome_iff_eq_none, ← hfits.kind_eq_error_iff, hkind]
      decide
    rw [hfits.before_of_none hnone]
    exact List.not_mem_nil
  · exact fun hmem => hfits.newline_notMem hkind ((before_isPrefix hne).subset hmem)

/-- The next token begins behind the piece of this one and its gap. -/
theorem resumeOffset_token {source : List UInt8} {front symbols : List Symbol}
    (hcovers : Utf8.symbols source = front ++ symbols) (hne : symbols ≠ []) (pos : Position) :
    resumeOffset source (front.flatMap Symbol.bytes).length ((nextPiece symbols).token pos) =
      ((front ++ ((nextPiece symbols).taken ++ (nextPiece symbols).gap)).flatMap
        Symbol.bytes).length := by
  have hfits := (nextPiece_fits hne).1
  have hrest : Utf8.symbols source =
      (front ++ (nextPiece symbols).taken) ++ (nextPiece symbols).rest := by
    rw [hcovers, List.append_assoc, hfits.covers]
    rfl
  have hstop : (front.flatMap Symbol.bytes).length + (nextPiece symbols).raw.length =
      ((front ++ (nextPiece symbols).taken).flatMap Symbol.bytes).length := by
    rw [List.flatMap_append, List.length_append]
    rfl
  have hline : (nextPiece symbols).kind = .error →
      (source.drop ((front ++ (nextPiece symbols).taken).flatMap Symbol.bytes).length).takeWhile
        (· != 0x0A) = (nextPiece symbols).gap.flatMap Symbol.bytes := by
    intro hkind
    have hsome : (nextPiece symbols).fault.isSome := hfits.kind_eq_error_iff.mp hkind
    rw [drop_of_symbols hrest, takeWhile_bytes (readable_of_symbols hrest), Piece.gap,
      if_pos hsome]
  have hgap : (nextPiece symbols).kind ≠ .error → (nextPiece symbols).gap = [] := by
    intro hkind
    rw [ne_eq, hfits.kind_eq_error_iff, Option.not_isSome_iff_eq_none] at hkind
    exact (Piece.gap_of_fault_eq_none hkind).1
  have hlength : ((front ++ ((nextPiece symbols).taken ++ (nextPiece symbols).gap)).flatMap
      Symbol.bytes).length = ((front ++ (nextPiece symbols).taken).flatMap Symbol.bytes).length +
        ((nextPiece symbols).gap.flatMap Symbol.bytes).length := by
    rw [← List.append_assoc, List.flatMap_append, List.length_append]
  rw [hlength]
  show (if (nextPiece symbols).kind = .error then _ else _) = _
  dsimp only [Piece.token]
  rw [hstop]
  split
  · rw [hline ‹_›]
  · rw [hgap ‹_›]
    rfl

/-! ## All tokens -/

section

variable {source : List UInt8} {before after : List Token} {t : Token}
  {P : List Symbol → List Symbol → Prop}

/-- What is passed on over every piece holds where a token occurs. -/
theorem exists_occurrence_tokensAt {front symbols : List Symbol}
    (hcovers : Utf8.symbols source = front ++ symbols)
    (h : tokensAt (Position.origin.afterAll front) symbols = before ++ t :: after)
    (hP : P front symbols) (hstep : PassedOn P) :
    ∃ front' symbols', Occurrence source
      (before.foldl (resumeOffset source) (front.flatMap Symbol.bytes).length) t after
      front' symbols' ∧ P front' symbols' := by
  induction symbols using pieces_induction generalizing front before with
  | nil =>
    rw [tokensAt_nil] at h
    cases before with
    | nil =>
      cases h
      refine ⟨front, [], ⟨hcovers, rfl, ?_, fun _ => rfl, fun hne => absurd rfl hne⟩, hP⟩
      rw [nextPiece_nil]
      rfl
    | cons u before => simp at h
  | piece symbols hne ih =>
    rw [tokensAt_of_ne_nil _ hne, ← Position.afterAll_append] at h
    cases before with
    | nil =>
      cases h
      exact ⟨front, symbols, ⟨hcovers, rfl, rfl, fun hnil => absurd hnil hne, fun _ => rfl⟩, hP⟩
    | cons u before =>
      rw [List.cons_append, List.cons.injEq] at h
      obtain ⟨rfl, hmore⟩ := h
      have hcovers' : Utf8.symbols source =
          (front ++ ((nextPiece symbols).taken ++ (nextPiece symbols).gap)) ++
            (nextPiece symbols).after := by
        rw [hcovers, List.append_assoc, List.append_assoc, nextPiece_split]
      rw [List.foldl_cons, resumeOffset_token hcovers hne]
      exact ih hcovers' hmore (hstep hne hP)

/-- Every token of a source occurs in it, where all holds that is passed on from the beginning. -/
theorem exists_occurrence_of_step (h : tokenize source = before ++ t :: after)
    (hstart : P [] (Utf8.symbols source)) (hstep : PassedOn P) :
    ∃ front symbols, Occurrence source (startOffset source before) t after front symbols ∧
      P front symbols := by
  rw [tokenize_eq] at h
  have hcovers : Utf8.symbols source = [] ++ Utf8.symbols source := rfl
  exact exists_occurrence_tokensAt hcovers h hstart hstep

/-- Every token of a source occurs at its start. -/
theorem exists_occurrence (h : tokenize source = before ++ t :: after) :
    ∃ front symbols, Occurrence source (startOffset source before) t after front symbols := by
  obtain ⟨front, symbols, hoccurs, -⟩ :=
    @exists_occurrence_of_step source before after t (fun _ _ => True) h trivial
      fun _ _ _ _ => trivial
  exact ⟨front, symbols, hoccurs⟩

end

namespace Occurrence

variable {source : List UInt8} {start : Nat} {t : Token} {after : List Token}
  {front symbols : List Symbol}

/-- A token that is not the end is taken from some symbols. -/
theorem ne_nil (h : Occurrence source start t after front symbols) (hkind : t.kind ≠ .endOfFile) :
    symbols ≠ [] := by
  rintro rfl
  apply hkind
  rw [h.token_eq, nextPiece_nil]
  rfl

/-- The bytes of a token begin at an exact place. -/
theorem exact_start (h : Occurrence source start t after front symbols) :
    (Position.origin.afterAll front).Exact source ∧
      (Position.origin.afterAll front).offset = start := by
  refine ⟨exact_afterAll h.covers, ?_⟩
  rw [h.start_eq, Position.offset_origin_afterAll]

/-- The symbols of a token, with those in front of it and behind it. -/
theorem covers_rest (h : Occurrence source start t after front symbols) (hne : symbols ≠ []) :
    Utf8.symbols source = (front ++ (nextPiece symbols).taken) ++ (nextPiece symbols).rest := by
  rw [h.covers, List.append_assoc, (nextPiece_fits hne).1.covers]
  rfl

/-- The bytes of a token are those of the symbols that it takes. -/
theorem raw_eq (h : Occurrence source start t after front symbols) :
    t.raw = (nextPiece symbols).taken.flatMap Symbol.bytes := by
  rw [h.token_eq]
  rfl

/-- The place of a token is behind all symbols in front of it or of its fault. -/
theorem pos_eq (h : Occurrence source start t after front symbols) :
    t.pos = Position.origin.afterAll (front ++ (nextPiece symbols).before) := by
  rw [h.token_eq, Position.afterAll_append]
  rfl

/-- The offset of a token counts the bytes in front of it or of its fault. -/
theorem toNat_offset (h : Occurrence source start t after front symbols) :
    t.pos.offset.toNat =
      ((front ++ (nextPiece symbols).before).flatMap Symbol.bytes).length := by
  rw [h.pos_eq, Position.offset_origin_afterAll, Int.toNat_natCast]

/-- A token stops behind the bytes of the symbols that it takes. -/
theorem stop_eq (h : Occurrence source start t after front symbols) :
    start + t.raw.length =
      ((front ++ (nextPiece symbols).taken).flatMap Symbol.bytes).length := by
  rw [h.start_eq, h.raw_eq, List.flatMap_append, List.length_append]

/-- The place that a token names is in front of other symbols, or at the end. -/
theorem exists_covers_before (h : Occurrence source start t after front symbols)
    (hne : symbols ≠ []) :
    ∃ more, Utf8.symbols source = (front ++ (nextPiece symbols).before) ++ more := by
  obtain ⟨more, hmore⟩ := before_isPrefix hne
  refine ⟨more ++ (nextPiece symbols).rest, ?_⟩
  rw [h.covers_rest hne, ← hmore]
  simp only [List.append_assoc]

/-- The bytes of a token are read as the symbols of its piece. -/
theorem symbols_raw (h : Occurrence source start t after front symbols) (hne : symbols ≠ []) :
    Utf8.symbols t.raw = (nextPiece symbols).taken := by
  have hcovers := h.covers_rest hne
  rw [List.append_assoc] at hcovers
  rw [h.raw_eq]
  exact Utf8.symbols_bytes_of_append (Utf8.symbols_suffix hcovers)

/-- The source goes on with the symbols of a token where its bytes begin. -/
theorem drop_start (h : Occurrence source start t after front symbols) :
    Utf8.symbols (source.drop start) = symbols := by
  rw [h.start_eq, drop_of_symbols h.covers]
  exact Utf8.symbols_suffix h.covers

/-- The bytes of a token stand at its start. -/
theorem raw_isPrefix (h : Occurrence source start t after front symbols) :
    t.raw <+: source.drop start := by
  by_cases hne : symbols = []
  · rw [h.raw_eq, hne, nextPiece_nil]
    exact List.nil_prefix
  · have hcovers := h.covers_rest hne
    rw [List.append_assoc] at hcovers
    rw [h.raw_eq, h.start_eq, drop_of_symbols hcovers, List.flatMap_append]
    exact List.prefix_append _ _

/-- Only an error names another place than the one at which its bytes begin. -/
theorem before_eq_nil (h : Occurrence source start t after front symbols)
    (hkind : t.kind ≠ .error) : (nextPiece symbols).before = [] := by
  by_cases hne : symbols = []
  · rw [hne, nextPiece_nil]
    rfl
  · have hfits := (nextPiece_fits hne).1
    apply hfits.before_of_none
    rw [← Option.not_isSome_iff_eq_none, ← hfits.kind_eq_error_iff]
    rw [h.token_eq] at hkind
    exact hkind

/-- A token that is no error names its start as its place. -/
theorem offset_eq_start (h : Occurrence source start t after front symbols)
    (hkind : t.kind ≠ .error) : t.pos.offset = start := by
  rw [← h.exact_start.2, h.token_eq]
  dsimp only [Piece.token]
  rw [h.before_eq_nil hkind, Position.afterAll_nil]

end Occurrence

/-- The bytes of a token stand at its offset, which is the place that it names unless it is an
error. -/
theorem stands_at_startOffset {source : List UInt8} {before after : List Token} {t : Token}
    (h : tokenize source = before ++ t :: after) :
    t.raw <+: source.drop (startOffset source before) ∧
      (t.kind ≠ .error → t.pos.offset = startOffset source before) := by
  obtain ⟨front, symbols, hoccurs⟩ := exists_occurrence h
  exact ⟨hoccurs.raw_isPrefix, hoccurs.offset_eq_start⟩

end AsmLexer

import AsmLexer.Proofs.Scanner.Tokens

/-!
# A source is put together again from its tokens

Every byte of a source belongs to a token or to the gap that is dropped behind an error. A stretch
is a token with the gap behind it, and the stretches of a source, one after the other, are the
source. `Placed` collects what is true of one stretch with some bytes in front of it: which gaps
there are, where the token points, and how the scanner recovers from an error. It is shown for the
first piece of any symbols (`placed_nextPiece`) and passed on from piece to piece
(`placed_stretchesAt`).
-/

set_option autoImplicit false

namespace AsmLexer

/-- A token and the bytes between it and the next one. -/
structure Stretch where
  token : Token
  gap : List UInt8

/-- The bytes of a token and of its gap. -/
def Stretch.bytes (s : Stretch) : List UInt8 :=
  s.token.raw ++ s.gap

/-- A stretch that ends the line on which the scanner recovers: the newline that comes next in the
source, or the end of the source. -/
def EndsLine (source front : List UInt8) (stop : Stretch) (later : List Stretch) : Prop :=
  (stop.token.kind = .endOfLine ∧ stop.token.raw = [0x0A] ∧
    stop.token.pos.offset = front.length ∧ ∃ rest, source = front ++ 0x0A :: rest) ∨
  (stop.token.kind = .endOfFile ∧ stop.token.raw = [] ∧
    stop.token.pos.offset = source.length ∧ source = front ∧ later = [])

/-- What is true of a stretch of a source that has some bytes in front of it. -/
structure Placed (source front : List UInt8) (s : Stretch) (later : List Stretch) : Prop where
  raw_isPrefix : front ++ s.token.raw <+: source
  gap_eq_nil : s.token.kind ≠ .error → s.gap = []
  newline_notMem : s.token.kind = .error → 0x0A ∉ s.bytes
  offset_eq : s.token.kind ≠ .error → s.token.pos.offset = front.length
  offset_within : s.token.kind = .error →
    front.length ≤ s.token.pos.offset ∧ s.token.pos.offset < front.length + s.token.raw.length
  recovers : s.token.kind = .error → ∃ stop more, later = stop :: more ∧
    EndsLine source (front ++ s.bytes) stop more ∧
    ∀ t ∈ more, s.token.pos.line < t.token.pos.line
  offset_lt : ∀ t ∈ later, s.token.pos.offset < t.token.pos.offset

/-- Stretches that make up a source, each in its place. -/
structure Reconstruction (source : List UInt8) (stretches : List Stretch) : Prop where
  covers : stretches.flatMap Stretch.bytes = source
  placed : ∀ before s later, stretches = before ++ s :: later →
    Placed source (before.flatMap Stretch.bytes) s later
  apart : ∀ before s middle t later, stretches = before ++ s :: (middle ++ t :: later) →
    (before.flatMap Stretch.bytes).length + s.token.raw.length ≤
      ((before ++ s :: middle).flatMap Stretch.bytes).length

/-! ## The stretches of some symbols -/

/-- The stretches of some symbols, the first of which begins at a place. -/
def stretchesAt (pos : Position) (symbols : List Symbol) : List Stretch :=
  let p := nextPiece symbols
  if _h : symbols = [] then [⟨p.token pos, []⟩]
  else ⟨p.token pos, p.gap.flatMap Symbol.bytes⟩ ::
    stretchesAt (pos.afterAll (p.taken ++ p.gap)) p.after
termination_by symbols.length
decreasing_by exact length_after_lt _h

/-- The end of the source is the last stretch. -/
theorem stretchesAt_nil (pos : Position) :
    stretchesAt pos [] = [⟨⟨.endOfFile, pos, [], ""⟩, []⟩] := by
  rw [stretchesAt, dif_pos rfl, nextPiece_nil]
  rfl

/-- A stretch is the next piece with its gap, and the others come behind both. -/
theorem stretchesAt_of_ne_nil (pos : Position) {symbols : List Symbol} (h : symbols ≠ []) :
    stretchesAt pos symbols =
      ⟨(nextPiece symbols).token pos, (nextPiece symbols).gap.flatMap Symbol.bytes⟩ ::
        stretchesAt (pos.afterAll ((nextPiece symbols).taken ++ (nextPiece symbols).gap))
          (nextPiece symbols).after := by
  rw [stretchesAt, dif_neg h]

/-- A newline is a stretch without a gap. -/
theorem stretchesAt_newline (pos : Position) (ahead : List Symbol) :
    stretchesAt pos (.char '\n' :: ahead) =
      ⟨⟨.endOfLine, pos, [0x0A], ""⟩, []⟩ :: stretchesAt (pos.after (.char '\n')) ahead := by
  rw [stretchesAt_of_ne_nil pos (List.cons_ne_nil _ ahead), nextPiece_newline]
  rfl

/-- The stretches have the tokens of the symbols. -/
theorem map_token_stretchesAt (pos : Position) (symbols : List Symbol) :
    (stretchesAt pos symbols).map Stretch.token = tokensAt pos symbols := by
  induction symbols using pieces_induction generalizing pos with
  | nil =>
    rw [stretchesAt_nil, tokensAt_nil]
    rfl
  | piece symbols hne ih => rw [stretchesAt_of_ne_nil pos hne, tokensAt_of_ne_nil pos hne,
      List.map_cons, ih]

/-- A piece, its gap and what is behind are all the bytes. -/
theorem bytes_nextPiece (symbols : List Symbol) :
    (nextPiece symbols).raw ++ (nextPiece symbols).gap.flatMap Symbol.bytes ++
      (nextPiece symbols).after.flatMap Symbol.bytes = symbols.flatMap Symbol.bytes := by
  have hsplit := congrArg (List.flatMap Symbol.bytes) (nextPiece_split symbols)
  rw [List.flatMap_append, List.flatMap_append, ← List.append_assoc] at hsplit
  exact hsplit

/-- The stretches in a row are all the bytes. -/
theorem bytes_stretchesAt (pos : Position) (symbols : List Symbol) :
    (stretchesAt pos symbols).flatMap Stretch.bytes = symbols.flatMap Symbol.bytes := by
  induction symbols using pieces_induction generalizing pos with
  | nil =>
    rw [stretchesAt_nil]
    rfl
  | piece symbols hne ih =>
    rw [stretchesAt_of_ne_nil pos hne, List.flatMap_cons, ih]
    exact bytes_nextPiece symbols

/-! ## Places only move forward -/

/-- Behind some symbols neither the line nor the offset is less. -/
theorem le_afterAll (pos : Position) (run : List Symbol) :
    pos.line ≤ (pos.afterAll run).line ∧ pos.offset ≤ (pos.afterAll run).offset := by
  rw [Position.line_afterAll, Position.offset_afterAll]
  omega

/-- No token is in front of the place where the stretches begin. -/
theorem le_of_mem_stretchesAt {pos : Position} {symbols : List Symbol} {s : Stretch}
    (h : s ∈ stretchesAt pos symbols) :
    pos.line ≤ s.token.pos.line ∧ pos.offset ≤ s.token.pos.offset := by
  induction symbols using pieces_induction generalizing pos with
  | nil =>
    rw [stretchesAt_nil, List.mem_singleton] at h
    subst h
    exact ⟨Int.le_refl _, Int.le_refl _⟩
  | piece symbols hne ih =>
    rw [stretchesAt_of_ne_nil pos hne, List.mem_cons] at h
    rcases h with rfl | h
    · exact le_afterAll pos (nextPiece symbols).before
    · have hstart := le_afterAll pos ((nextPiece symbols).taken ++ (nextPiece symbols).gap)
      have hmore := ih h
      omega

/-- A token points into its piece: to the front of it, or to a symbol behind that. -/
theorem offset_token_lt {symbols : List Symbol} (hne : symbols ≠ []) (pos : Position) :
    ((nextPiece symbols).token pos).pos.offset <
      pos.offset + (nextPiece symbols).raw.length := by
  obtain ⟨hfits, htaken⟩ := nextPiece_fits hne
  have hsplit : ∃ s more, (nextPiece symbols).taken = (nextPiece symbols).before ++ s :: more := by
    cases hfault : (nextPiece symbols).fault with
    | none =>
      obtain ⟨s, more, hmore⟩ := List.exists_cons_of_ne_nil htaken
      exact ⟨s, more, by rw [hfits.before_of_none hfault, hmore]; rfl⟩
    | some fault => exact hfits.before_of_some (by rw [hfault]; rfl)
  obtain ⟨s, more, hmore⟩ := hsplit
  have hpos := s.size_pos
  unfold Piece.token Piece.raw
  rw [Position.offset_afterAll, hmore, List.flatMap_append, List.flatMap_cons, List.length_append,
    List.length_append, s.length_bytes]
  omega

/-! ## The first stretch -/

/-- Symbols of which only the newline holds the byte of a newline. -/
def Readable (symbols : List Symbol) : Prop :=
  ∀ s ∈ symbols, 0x0A ∈ s.bytes ↔ s = .char '\n'

/-- The rest of readable symbols is readable. -/
theorem Readable.of_suffix {before after : List Symbol} (h : Readable (before ++ after)) :
    Readable after :=
  fun s hs => h s (List.mem_append_right before hs)

/-- Readable symbols on one line have no newline among their bytes. -/
theorem Readable.newline_notMem {run : List Symbol} (h : Readable run)
    (hrun : .char '\n' ∉ run) : 0x0A ∉ run.flatMap Symbol.bytes := by
  intro hmem
  obtain ⟨s, hs, hbyte⟩ := List.mem_flatMap.mp hmem
  have hnewline := (h s hs).mp hbyte
  subst hnewline
  exact hrun hs

/-- A gap stays on its line. -/
theorem newline_notMem_gap (p : Piece) : .char '\n' ∉ p.gap := by
  intro hmem
  unfold Piece.gap at hmem
  split at hmem
  · have hstays := List.mem_takeWhile_imp hmem
    revert hstays
    decide
  · cases hmem

/-- Behind the gap of an error there is a newline or nothing. -/
theorem after_of_fault {p : Piece} (h : p.fault.isSome) :
    p.after = [] ∨ ∃ ahead, p.after = .char '\n' :: ahead := by
  have hstops := List.head?_dropWhile_not Symbol.staysOnLine p.rest
  unfold Piece.after
  rw [if_pos h]
  cases hafter : p.rest.dropWhile Symbol.staysOnLine with
  | nil => exact .inl rfl
  | cons s ahead =>
    rw [hafter] at hstops
    simp only [List.head?_cons, Symbol.staysOnLine, bne_eq_false_iff_eq] at hstops
    exact .inr ⟨ahead, by rw [hstops]⟩

/-- The end of the source is in its place. -/
theorem placed_end {source : List UInt8} {pos : Position} (hpos : pos.offset = source.length) :
    Placed source source ⟨⟨.endOfFile, pos, [], ""⟩, []⟩ [] where
  raw_isPrefix := by simp
  gap_eq_nil := fun _ => rfl
  newline_notMem := by simp
  offset_eq := fun _ => hpos
  offset_within := by simp
  recovers := by simp
  offset_lt := by simp

/-- The place behind a piece and its gap is as far as their bytes go. -/
theorem offset_behind {front : List UInt8} {pos : Position} (hpos : pos.offset = front.length)
    (p : Piece) : (pos.afterAll (p.taken ++ p.gap)).offset =
      (front ++ (p.raw ++ p.gap.flatMap Symbol.bytes)).length := by
  rw [Position.offset_afterAll, hpos, List.flatMap_append, ← Int.natCast_add, ← List.length_append]
  rfl

/-- An error token and its gap stay on their line. -/
theorem newline_notMem_nextPiece {symbols : List Symbol} (hne : symbols ≠ [])
    (hread : Readable symbols) (hkind : (nextPiece symbols).kind = .error) :
    0x0A ∉ (nextPiece symbols).raw ++ (nextPiece symbols).gap.flatMap Symbol.bytes := by
  have hline : (nextPiece symbols).kind ≠ .endOfLine := by
    rw [hkind]
    decide
  have hrun : .char '\n' ∉ (nextPiece symbols).taken ++ (nextPiece symbols).gap := by
    rw [List.mem_append, not_or]
    exact ⟨(nextPiece_fits hne).1.newline_notMem hline, newline_notMem_gap _⟩
  have hreadable : Readable ((nextPiece symbols).taken ++ (nextPiece symbols).gap) := by
    intro s hs
    apply hread
    rw [← nextPiece_split symbols, ← List.append_assoc]
    exact List.mem_append_left _ hs
  have hbytes := hreadable.newline_notMem hrun
  rw [List.flatMap_append] at hbytes
  exact hbytes

/-- The stretch behind an error ends its line, and the others are on later lines. -/
theorem recovers_nextPiece {front : List UInt8} {pos : Position} {symbols : List Symbol}
    (hne : symbols ≠ []) (hpos : pos.offset = front.length)
    (hkind : (nextPiece symbols).kind = .error) :
    ∃ stop more, stretchesAt (pos.afterAll ((nextPiece symbols).taken ++ (nextPiece symbols).gap))
        (nextPiece symbols).after = stop :: more ∧
      EndsLine (front ++ symbols.flatMap Symbol.bytes)
        (front ++ ((nextPiece symbols).raw ++ (nextPiece symbols).gap.flatMap Symbol.bytes))
        stop more ∧
      ∀ t ∈ more, ((nextPiece symbols).token pos).pos.line < t.token.pos.line := by
  obtain ⟨hfits, -⟩ := nextPiece_fits hne
  have hoffset := offset_behind hpos (nextPiece symbols)
  have hbytes := bytes_nextPiece symbols
  have hsome : (nextPiece symbols).fault.isSome := hfits.kind_eq_error_iff.mp hkind
  obtain ⟨bad, more, hbad⟩ := hfits.before_of_some hsome
  have hlines : ((nextPiece symbols).token pos).pos.line ≤
      (pos.afterAll ((nextPiece symbols).taken ++ (nextPiece symbols).gap)).line := by
    rw [hbad, List.append_assoc, Position.afterAll_append]
    exact (le_afterAll _ _).1
  rcases after_of_fault hsome with hafter | ⟨ahead, hafter⟩
  · rw [hafter, List.flatMap_nil, List.append_nil] at hbytes
    rw [hafter, stretchesAt_nil, ← hbytes]
    exact ⟨_, [], rfl, .inr ⟨rfl, rfl, hoffset, rfl, rfl⟩, List.forall_mem_nil _⟩
  · rw [hafter, stretchesAt_newline]
    refine ⟨_, _, rfl, .inl ⟨rfl, rfl, hoffset, ahead.flatMap Symbol.bytes, ?_⟩, ?_⟩
    · rw [← hbytes, hafter, List.append_assoc]
      simp only [List.append_assoc]
      rfl
    · intro t ht
      have hle := (le_of_mem_stretchesAt ht).1
      rw [Position.after_newline] at hle
      dsimp only at hle
      omega

/-- The first stretch is in its place. -/
theorem placed_nextPiece {front : List UInt8} {pos : Position} {symbols : List Symbol}
    (hne : symbols ≠ []) (hread : Readable symbols) (hpos : pos.offset = front.length) :
    Placed (front ++ symbols.flatMap Symbol.bytes) front
      ⟨(nextPiece symbols).token pos, (nextPiece symbols).gap.flatMap Symbol.bytes⟩
      (stretchesAt (pos.afterAll ((nextPiece symbols).taken ++ (nextPiece symbols).gap))
        (nextPiece symbols).after) := by
  obtain ⟨hfits, -⟩ := nextPiece_fits hne
  have hoffset := offset_behind hpos (nextPiece symbols)
  have hlater := offset_token_lt hne pos
  constructor
  · rw [← bytes_nextPiece symbols, List.append_assoc, ← List.append_assoc]
    exact List.prefix_append _ _
  · intro hkind
    have hfault : ¬ (nextPiece symbols).fault.isSome := by
      intro hsome
      exact hkind (hfits.kind_eq_error_iff.mpr hsome)
    simp only [Piece.gap, if_neg hfault, List.flatMap_nil]
  · intro hkind
    exact newline_notMem_nextPiece hne hread hkind
  · intro hkind
    have hnone : (nextPiece symbols).fault = none := by
      rw [← Option.not_isSome_iff_eq_none, ← hfits.kind_eq_error_iff]
      exact hkind
    unfold Piece.token
    rw [hfits.before_of_none hnone]
    exact hpos
  · intro _
    have hle := (le_afterAll pos (nextPiece symbols).before).2
    rw [hpos] at hle hlater
    exact ⟨hle, hlater⟩
  · intro hkind
    exact recovers_nextPiece hne hpos hkind
  · intro t ht
    have hle := (le_of_mem_stretchesAt ht).2
    rw [hoffset] at hle
    simp only [List.length_append] at hle ⊢
    omega

/-! ## All stretches -/

/-- Every stretch is in its place. -/
theorem placed_stretchesAt {front : List UInt8} {pos : Position} {symbols : List Symbol}
    (hread : Readable symbols) (hpos : pos.offset = front.length) {before later : List Stretch}
    {s : Stretch} (h : stretchesAt pos symbols = before ++ s :: later) :
    Placed (front ++ symbols.flatMap Symbol.bytes)
      (front ++ before.flatMap Stretch.bytes) s later := by
  induction symbols using pieces_induction generalizing pos front before with
  | nil =>
    rw [stretchesAt_nil] at h
    cases before with
    | nil =>
      cases h
      simp only [List.flatMap_nil, List.append_nil]
      exact placed_end hpos
    | cons t before => simp at h
  | piece symbols hne ih =>
    rw [stretchesAt_of_ne_nil pos hne] at h
    cases before with
    | nil =>
      cases h
      rw [List.flatMap_nil, List.append_nil]
      exact placed_nextPiece hne hread hpos
    | cons t before =>
      rw [List.cons_append, List.cons.injEq] at h
      obtain ⟨rfl, hmore⟩ := h
      -- the stretches behind the first one have its bytes in front of them
      rw [← nextPiece_split symbols, ← List.append_assoc] at hread
      have hplaced := ih hread.of_suffix (offset_behind hpos (nextPiece symbols)) hmore
      rw [List.append_assoc, bytes_nextPiece, List.append_assoc] at hplaced
      exact hplaced

/-- The stretches of a source make it up. -/
theorem reconstruction_stretchesAt (source : List UInt8) :
    Reconstruction source (stretchesAt .origin (Utf8.symbols source)) where
  covers := by rw [bytes_stretchesAt, Utf8.bytes_symbols]
  placed := by
    intro before s later h
    have hread : Readable (Utf8.symbols source) := fun s hs => Utf8.newline_mem_bytes_iff hs
    have hplaced := @placed_stretchesAt [] .origin _ hread rfl before later s h
    rw [Utf8.bytes_symbols] at hplaced
    exact hplaced
  apart := by
    intro before s middle t later _
    rw [List.flatMap_append, List.flatMap_cons, Stretch.bytes]
    simp only [List.length_append]
    omega

/-- A relation that holds between each member of a list and those behind it. -/
theorem pairwise_of_splits {α : Type} {R : α → α → Prop} {xs : List α}
    (h : ∀ before x later, xs = before ++ x :: later → ∀ y ∈ later, R x y) : xs.Pairwise R := by
  induction xs with
  | nil => exact .nil
  | cons x xs ih =>
    refine .cons (h [] x xs rfl) (ih fun before y later hxs => ?_)
    exact h (x :: before) y later (congrArg (x :: ·) hxs)

/-- A source is its tokens one after the other, with gaps only behind errors. Behind an error the
scanner recovers at the end of the line. -/
theorem tokenize_reconstructs (source : List UInt8) :
    ∃ stretches : List Stretch, stretches.map Stretch.token = tokenize source ∧
      Reconstruction source stretches ∧
      (tokenize source).Pairwise (fun t u => t.pos.offset < u.pos.offset) ∧
      (tokenize source).Pairwise (fun t u =>
        t.kind = .error → u.kind = .error → t.pos.line < u.pos.line) ∧
      ((∀ t ∈ tokenize source, t.kind ≠ .error) →
        (tokenize source).flatMap Token.raw = source) := by
  have htokens :
      (stretchesAt .origin (Utf8.symbols source)).map Stretch.token = tokenize source := by
    rw [map_token_stretchesAt, tokenize_eq]
  have hreconstruction := reconstruction_stretchesAt source
  refine ⟨_, htokens, hreconstruction, ?_⟩
  rw [← htokens]
  generalize stretchesAt .origin (Utf8.symbols source) = stretches at hreconstruction
  refine ⟨?_, ?_, ?_⟩
  · rw [List.pairwise_map]
    apply pairwise_of_splits
    intro before s later h t ht
    exact (hreconstruction.placed before s later h).offset_lt t ht
  · rw [List.pairwise_map]
    apply pairwise_of_splits
    intro before s later h t ht hs hkind
    obtain ⟨stop, more, rfl, hstop, hlines⟩ := (hreconstruction.placed before s later h).recovers hs
    -- what comes next ends the line and is no error, and all else is on later lines
    rcases List.mem_cons.mp ht with rfl | ht
    · rcases hstop with ⟨hline, -⟩ | ⟨hfile, -⟩
      · rw [hline] at hkind
        cases hkind
      · rw [hfile] at hkind
        cases hkind
    · exact hlines t ht
  · intro herrors
    have hbytes : ∀ s ∈ stretches, s.token.raw = s.bytes := by
      intro s hs
      obtain ⟨before, later, h⟩ := List.append_of_mem hs
      have hkind := herrors s.token (List.mem_map_of_mem hs)
      rw [Stretch.bytes, (hreconstruction.placed before s later h).gap_eq_nil hkind,
        List.append_nil]
    rw [List.flatMap_map, ← hreconstruction.covers]
    exact List.flatMap_congr hbytes

end AsmLexer

import AsmLexer.Proofs.Extent
import AsmLexer.Proofs.FaultMessage
import AsmLexer.Proofs.Grammar.Acceptance
import AsmLexer.Proofs.LineComposition
import AsmLexer.Proofs.Scanner.Outcome

/-!
# Errors are found as early as they can be

An error is the first one on its line. What stands in front of it has the same tokens whatever
stands at the error (`Settled`), none of which is an error, and what the erroneous token has read up
to its fault is on the way to a token. So the line up to the error is without one, if need be with
one more zero. If the error is about an illegal symbol, nothing behind that symbol can mend it.
-/

set_option autoImplicit false

namespace AsmLexer

/-! ## What is found -/

/-- Whether a text has an error like this one on its first line. -/
def Repeats (t : Token) (text : List UInt8) : Prop :=
  ∃ u ∈ tokenize text, u.kind = .error ∧ u.pos.line = 1 ∧ u.pos.column = t.pos.column ∧
    u.raw = t.raw ∧ u.message = t.message

/-- What stands in a source where a fault is found, for a token that begins at an offset. -/
def Fault.FoundIn (source : List UInt8) (start : Nat) (t : Token) (fault : Fault) : Prop :=
  let found := t.pos.offset.toNat
  let stop := start + t.raw.length
  match fault with
  | .illegalSymbol c | .illegalAfterZero c | .illegalDigit c _ =>
    Utf8.first? (source.drop found) = some (.char c) ∧ found + c.utf8Size = stop ∧ c ≠ '\n' ∧
      ∀ more, Repeats t ((source.take stop).drop (lineStart source found) ++ more)
  | .invalidByte byte =>
    Utf8.first? (source.drop found) = some (.malformed byte) ∧ stop = found + 1
  | .malformedImmediate _ =>
    found = start ∧ t.raw ∈ bareMarkers.map Utf8.encode ∧
      Kind.immediate.Allows (source.drop stop)

/-! ## Settled lines -/

/-- The beginning of a line in front of some symbols, whose tokens are without an error and are the
same if less or nothing stands behind it. -/
def Settled (line symbols : List Symbol) : Prop :=
  ∀ more, more = [] ∨ more.head? = symbols.head? →
    ∃ init, ErrorFree init ∧ tokensAt .origin (line ++ more) =
      init ++ tokensAt (Position.origin.afterAll line) more

/-- Some whole lines, and text on one more line that is settled. -/
structure SettledLine (lines line symbols : List Symbol) : Prop where
  whole : WholeLines (.char '\n') lines
  newline_notMem : .char '\n' ∉ line
  text : ∃ cs : List Char, line = cs.map .char
  settled : Settled line symbols

/-- Behind whole lines nothing stands on the next one yet. -/
theorem settledLine_nil {lines : List Symbol} (hlines : WholeLines (.char '\n') lines)
    (symbols : List Symbol) : SettledLine lines [] symbols where
  whole := hlines
  newline_notMem := List.not_mem_nil
  text := ⟨[], rfl⟩
  settled := fun _ _ => ⟨[], List.forall_mem_nil _, rfl⟩

/-- A token that does not begin with a newline has none. -/
theorem newline_notMem_taken {symbols : List Symbol} (hhead : symbols.head? ≠ some (.char '\n')) :
    .char '\n' ∉ (nextPiece symbols).taken := by
  intro hmem
  have hne : symbols ≠ [] := by
    rintro rfl
    rw [nextPiece_nil] at hmem
    cases hmem
  have hcovers : (nextPiece symbols).taken ++ (nextPiece symbols).rest = symbols :=
    (nextPiece_fits hne).1.covers
  have hmem' : Symbol.char '\n' ∈ symbols := by
    rw [← hcovers]
    exact List.mem_append_left _ hmem
  obtain ⟨line, more, rfl, hline⟩ := List.eq_append_cons_of_mem hmem'
  have hline_ne : line ≠ [] := by
    rintro rfl
    exact hhead rfl
  rw [nextPiece_append_newline hline_ne] at hmem
  -- the piece is taken from the line alone, which holds no newline
  have hline_covers : (nextPiece line).taken ++ (nextPiece line).rest = line :=
    (nextPiece_fits hline_ne).1.covers
  apply hline
  rw [← hline_covers]
  exact List.mem_append_left _ hmem

/-- A token begins with the first symbol that is left. -/
theorem head?_taken_append {symbols : List Symbol} (hne : symbols ≠ []) (more : List Symbol) :
    ((nextPiece symbols).taken ++ more).head? = symbols.head? := by
  obtain ⟨hfits, htaken⟩ := nextPiece_fits hne
  have hhead := congrArg List.head? hfits.covers
  rw [List.head?_append_of_ne_nil _ htaken] at hhead
  rw [List.head?_append_of_ne_nil _ htaken, hhead]
  rfl

section

variable {lines line symbols : List Symbol}

/-- A piece without a fault settles what it takes. -/
theorem Settled.after (h : Settled line symbols) (hne : symbols ≠ [])
    (hfault : (nextPiece symbols).fault = none) :
    Settled (line ++ (nextPiece symbols).taken) (nextPiece symbols).rest := by
  intro more hmore
  obtain ⟨init, hinit, htokens⟩ := h _ (.inr (head?_taken_append hne more))
  have hkind : (nextPiece symbols).kind ≠ .error := by
    rw [ne_eq, (nextPiece_fits hne).1.kind_eq_error_iff, hfault]
    exact Bool.false_ne_true
  have hfault' : ((nextPiece symbols).followedBy more).fault = none := hfault
  obtain ⟨hgap, hafter⟩ := Piece.gap_of_fault_eq_none hfault'
  rw [tokensAt_taken_append hne (.inr hmore), ← Position.afterAll_append, hgap, hafter,
    List.append_nil, ← List.append_assoc, List.append_cons] at htokens
  exact ⟨_, List.forall_mem_append.mpr ⟨hinit, List.forall_mem_singleton.mpr hkind⟩, htokens⟩

/-- A token that is no comment and no error leaves the line behind it settled. -/
theorem SettledLine.after (h : SettledLine lines line symbols) (hne : symbols ≠ [])
    (hhead : symbols.head? ≠ some (.char '\n')) (hfault : (nextPiece symbols).fault = none)
    (hcomment : (nextPiece symbols).kind ≠ .comment) :
    SettledLine lines (line ++ (nextPiece symbols).taken) (nextPiece symbols).rest where
  whole := h.whole
  newline_notMem := by
    rw [List.mem_append, not_or]
    exact ⟨h.newline_notMem, newline_notMem_taken hhead⟩
  text := by
    obtain ⟨cs, hcs⟩ := h.text
    obtain ⟨ds, hds⟩ := (nextPiece_legible symbols).taken hfault hcomment
    exact ⟨cs ++ ds, by rw [hcs, hds, List.map_append]⟩
  settled := h.settled.after hne hfault

end

/-- Where the line has not ended, what stands on it is settled. -/
def SettledAt (front symbols : List Symbol) : Prop :=
  AtLineEnd symbols ∨ ∃ lines line, front = lines ++ line ∧ SettledLine lines line symbols

/-- What is settled up to one piece is settled up to the next one. -/
theorem settledAt_passedOn : PassedOn SettledAt := by
  intro front symbols hne h
  cases hfault : (nextPiece symbols).fault with
  | some fault =>
    left
    rw [Piece.after, hfault]
    exact atLineEnd_dropWhile _
  | none =>
    obtain ⟨hgap, hafter⟩ := Piece.gap_of_fault_eq_none hfault
    rw [hafter, hgap, List.append_nil]
    by_cases hhead : symbols.head? = some (.char '\n')
    · obtain ⟨more, rfl⟩ := List.head?_eq_some_iff.mp hhead
      rw [nextPiece_newline]
      exact .inr ⟨front ++ [.char '\n'], [], (List.append_nil _).symm,
        settledLine_nil (.inr ⟨front, rfl⟩) _⟩
    by_cases hcomment : (nextPiece symbols).kind = .comment
    · exact .inl ((nextPiece_legible symbols).comment hcomment)
    rcases h with hend | ⟨lines, line, rfl, hline⟩
    · obtain ⟨s, more, rfl⟩ := List.exists_cons_of_ne_nil hne
      exact absurd (congrArg some (hend s rfl)) hhead
    · exact .inr ⟨lines, _, List.append_assoc _ _ _, hline.after hne hhead hfault hcomment⟩

/-- An error is behind a settled line. -/
theorem exists_settledLine {source : List UInt8} {before after : List Token} {t : Token}
    (h : tokenize source = before ++ t :: after) (hkind : t.kind = .error) :
    ∃ lines line symbols,
      Occurrence source (startOffset source before) t after (lines ++ line) symbols ∧
      SettledLine lines line symbols := by
  have hstart : SettledAt [] (Utf8.symbols source) :=
    .inr ⟨[], [], rfl, settledLine_nil (.inl rfl) _⟩
  obtain ⟨front, symbols, hoccurs, hsettled⟩ :=
    exists_occurrence_of_step h hstart settledAt_passedOn
  rcases hsettled with hend | ⟨lines, line, rfl, hline⟩
  · -- a newline is a token by itself
    have hne := hoccurs.ne_nil (by rw [hkind]; decide)
    obtain ⟨s, more, rfl⟩ := List.exists_cons_of_ne_nil hne
    obtain rfl : s = .char '\n' := hend s rfl
    rw [hoccurs.token_eq, nextPiece_newline] at hkind
    cases hkind
  · exact ⟨lines, line, symbols, hoccurs, hline⟩

/-! ## The line up to an error -/

section

variable {line symbols : List Symbol}

/-- Settled text has no errors by itself. -/
theorem Settled.errorFree_line (h : Settled line symbols) : ErrorFree (tokensAt .origin line) := by
  obtain ⟨init, hinit, htokens⟩ := h [] (.inl rfl)
  rw [List.append_nil, tokensAt_nil] at htokens
  rw [htokens]
  refine List.forall_mem_append.mpr ⟨hinit, List.forall_mem_singleton.mpr ?_⟩
  exact Kind.noConfusion

/-- A settled line has no error with one more token that is none. -/
theorem Settled.errorFree_append {run : List Symbol} {kind : Kind} (h : Settled line symbols)
    (hne : run ≠ []) (hhead : run.head? = symbols.head?) (hkind : kind ≠ .error)
    (hrun : nextPiece run = .whole kind run []) : ErrorFree (tokensAt .origin (line ++ run)) := by
  obtain ⟨init, hinit, htokens⟩ := h run (.inr hhead)
  have hafter : (Piece.whole kind run []).after = [] := rfl
  rw [tokensAt_of_ne_nil _ hne, hrun, hafter, tokensAt_nil] at htokens
  rw [htokens]
  refine List.forall_mem_append.mpr ⟨hinit, List.forall_mem_cons.mpr ⟨hkind, ?_⟩⟩
  exact List.forall_mem_singleton.mpr Kind.noConfusion

end

/-- A part of the symbols of a source is the symbols of a part of it. -/
theorem take_drop_of_symbols {source : List UInt8} {lines line after : List Symbol}
    (h : Utf8.symbols source = lines ++ line ++ after) :
    (source.take ((lines ++ line).flatMap Symbol.bytes).length).drop
        (lines.flatMap Symbol.bytes).length = line.flatMap Symbol.bytes ∧
      Utf8.symbols (line.flatMap Symbol.bytes) = line := by
  constructor
  · rw [take_of_symbols h, List.flatMap_append, List.drop_left]
  · rw [List.append_assoc] at h
    exact Utf8.symbols_bytes_of_append (Utf8.symbols_suffix h)

section

variable {source : List UInt8} {start : Nat} {t : Token} {after : List Token}
  {lines line symbols : List Symbol}

/-- Up to the symbol at fault an error is on the settled line. -/
theorem SettledLine.newline_notMem_append (hline : SettledLine lines line symbols)
    (hne : symbols ≠ []) : .char '\n' ∉ line ++ (nextPiece symbols).before := by
  rw [List.mem_append, not_or]
  exact ⟨hline.newline_notMem, before_newline_notMem hne⟩

/-- The line of an error begins behind the whole lines in front of it. -/
theorem SettledLine.lineStart_eq (hline : SettledLine lines line symbols)
    (hoccurs : Occurrence source start t after (lines ++ line) symbols) (hne : symbols ≠ []) :
    lineStart source t.pos.offset.toNat = (lines.flatMap Symbol.bytes).length := by
  obtain ⟨more, hcovers⟩ := hoccurs.exists_covers_before hne
  rw [List.append_assoc lines] at hcovers
  rw [hoccurs.toNat_offset, List.append_assoc,
    lineStart_of_symbols hcovers (hline.newline_notMem_append hne) hline.whole]

/-- The line up to an error has none, if need be with one more zero. -/
theorem SettledLine.errorFree_or (hline : SettledLine lines line symbols)
    (hoccurs : Occurrence source start t after (lines ++ line) symbols) (hne : symbols ≠ [])
    (hcompletable : Completable (nextPiece symbols).before) :
    let found := t.pos.offset.toNat;
    let upTo := (source.take found).drop (lineStart source found);
    ErrorFree (tokenize upTo) ∨ ErrorFree (tokenize (upTo ++ [0x30])) := by
  intro found upTo
  obtain ⟨after, hcovers⟩ := hoccurs.exists_covers_before hne
  rw [List.append_assoc lines] at hcovers
  obtain ⟨hbytes, hsymbols⟩ := take_drop_of_symbols hcovers
  have hupTo : upTo = (line ++ (nextPiece symbols).before).flatMap Symbol.bytes := by
    rw [← hbytes, ← List.append_assoc, ← hoccurs.toNat_offset,
      ← hline.lineStart_eq hoccurs hne]
  rw [hupTo, tokenize_eq, tokenize_eq, Utf8.symbols_append_cons _ _ (by decide), hsymbols]
  rcases hcompletable with hnil | ⟨more, kind, hmore, hkind, hwhole⟩
  · left
    rw [hnil, List.append_nil]
    exact hline.settled.errorFree_line
  · by_cases hnil : (nextPiece symbols).before = []
    · left
      rw [hnil, List.append_nil]
      exact hline.settled.errorFree_line
    -- what has been read begins like the symbols ahead, so the line is settled in front of it
    have hhead : ((nextPiece symbols).before ++ more).head? = symbols.head? := by
      obtain ⟨behind, htaken⟩ := before_isPrefix hne
      have hsame := head?_taken_append hne []
      rw [List.append_nil, ← htaken, List.head?_append_of_ne_nil _ hnil] at hsame
      rw [List.head?_append_of_ne_nil _ hnil, hsame]
    have hrun := List.append_ne_nil_of_left_ne_nil hnil more
    have hfree := hline.settled.errorFree_append hrun hhead hkind hwhole
    rw [← List.append_assoc] at hfree
    rcases hmore with rfl | rfl
    · left
      rwa [List.append_nil] at hfree
    · right
      rw [Utf8.symbols_nil]
      exact hfree

/-- A fault at a symbol is found there again whatever stands behind the symbol. -/
theorem SettledLine.repeats (hline : SettledLine lines line symbols)
    (hoccurs : Occurrence source start t after (lines ++ line) symbols) (hne : symbols ≠ [])
    (hkind : t.kind = .error) {fault : Fault} (hfault : fault ∈ (nextPiece symbols).fault)
    (hsymbol : fault.atSymbol = true) {cs : List Char}
    (hcs : line ++ (nextPiece symbols).taken = cs.map .char) (more : List UInt8) :
    Repeats t ((line ++ (nextPiece symbols).taken).flatMap Symbol.bytes ++ more) := by
  obtain ⟨init, -, htokens⟩ :=
    hline.settled _ (.inr (head?_taken_append hne (Utf8.symbols more)))
  rw [tokensAt_taken_append hne (.inl ⟨fault, hfault, hsymbol⟩)] at htokens
  have hread : Utf8.symbols ((line ++ (nextPiece symbols).taken).flatMap Symbol.bytes ++ more) =
      line ++ ((nextPiece symbols).taken ++ Utf8.symbols more) := by
    rw [hcs, Utf8.bytes_map_char, Utf8.symbols_encode_append, ← hcs, List.append_assoc]
  have hpos : (Position.origin.afterAll line).afterAll (nextPiece symbols).before =
      Position.origin.afterAll (line ++ (nextPiece symbols).before) :=
    (Position.afterAll_append _ _ _).symm
  have hnewline := hline.newline_notMem_append hne
  refine ⟨(nextPiece symbols).token (Position.origin.afterAll line), ?_, ?_, ?_, ?_, ?_, ?_⟩
  · rw [tokenize_eq, hread, htokens]
    exact List.mem_append_right _ List.mem_cons_self
  · rw [hoccurs.token_eq] at hkind
    exact hkind
  · show ((Position.origin.afterAll line).afterAll (nextPiece symbols).before).line = 1
    rw [hpos, Position.afterAll_of_notMem _ hnewline]
    rfl
  · show ((Position.origin.afterAll line).afterAll (nextPiece symbols).before).column = _
    rw [hpos, Position.column_afterAll_of_notMem _ hnewline, hoccurs.pos_eq, List.append_assoc,
      column_of_lines hnewline hline.whole]
    rfl
  · rw [hoccurs.token_eq]
    rfl
  · rw [hoccurs.token_eq]
    rfl

/-! ## Faults -/

/-- A fault is found at the last symbol of its token. -/
theorem Occurrence.first?_faulty {front : List Symbol}
    (hoccurs : Occurrence source start t after front symbols) (hne : symbols ≠ [])
    {fault : Fault} {bad : Symbol} {before rest : List Symbol}
    (hpiece : nextPiece symbols = .faulty fault before bad rest) :
    Utf8.first? (source.drop t.pos.offset.toNat) = some bad ∧
      t.pos.offset.toNat + bad.size = start + t.raw.length := by
  have hbefore : (nextPiece symbols).before = before := congrArg Piece.before hpiece
  have htaken : (nextPiece symbols).taken = before ++ [bad] := congrArg Piece.taken hpiece
  have hcovers : Utf8.symbols source = (front ++ before) ++ bad :: (nextPiece symbols).rest := by
    rw [hoccurs.covers_rest hne, htaken]
    simp only [List.append_assoc, List.singleton_append]
  have hlength : ((front ++ before ++ [bad]).flatMap Symbol.bytes).length =
      ((front ++ before).flatMap Symbol.bytes).length + bad.size := by
    rw [List.flatMap_append, List.length_append, List.flatMap_singleton, bad.length_bytes]
  rw [hoccurs.stop_eq, hoccurs.toNat_offset, hbefore, htaken, first?_drop_of_symbols hcovers,
    ← List.append_assoc, hlength]
  exact ⟨rfl, rfl⟩

/-- What is said of an illegal symbol. -/
theorem SettledLine.found_illegal (hline : SettledLine lines line symbols)
    (hoccurs : Occurrence source start t after (lines ++ line) symbols) (hne : symbols ≠ [])
    (hkind : t.kind = .error) {fault : Fault} {c : Char} {before rest : List Symbol}
    (hsymbol : fault.atSymbol = true)
    (hpiece : nextPiece symbols = .faulty fault before (.char c) rest) :
    Utf8.first? (source.drop t.pos.offset.toNat) = some (.char c) ∧
      t.pos.offset.toNat + c.utf8Size = start + t.raw.length ∧ c ≠ '\n' ∧
      ∀ more, Repeats t ((source.take (start + t.raw.length)).drop
        (lineStart source t.pos.offset.toNat) ++ more) := by
  obtain ⟨hfirst, hstop⟩ := hoccurs.first?_faulty hne hpiece
  have hfault : fault ∈ (nextPiece symbols).fault := by
    rw [hpiece]
    rfl
  have htaken : (nextPiece symbols).taken = before ++ [.char c] := congrArg Piece.taken hpiece
  have hnewline : c ≠ '\n' := by
    rintro rfl
    have hkind' : (nextPiece symbols).kind ≠ .endOfLine := by
      rw [hpiece]
      exact Kind.noConfusion
    apply (nextPiece_fits hne).1.newline_notMem hkind'
    rw [htaken]
    exact List.mem_append_right _ List.mem_cons_self
  have hcovers := hoccurs.covers_rest hne
  rw [List.append_assoc lines] at hcovers
  obtain ⟨hbytes, -⟩ := take_drop_of_symbols hcovers
  obtain ⟨cs, hcs⟩ := hline.text
  obtain ⟨ds, hds⟩ := (nextPiece_legible symbols).before
  have hds : before = ds.map .char := by
    rw [← hds, hpiece]
    rfl
  have hall : line ++ (nextPiece symbols).taken = (cs ++ ds ++ [c]).map .char := by
    rw [htaken, hcs, hds, List.map_append, List.map_append, List.append_assoc]
    rfl
  refine ⟨hfirst, hstop, hnewline, fun more => ?_⟩
  rw [hline.lineStart_eq hoccurs hne, hoccurs.stop_eq, List.append_assoc, hbytes]
  exact hline.repeats hoccurs hne hkind hfault hsymbol hall more

/-- An error at a symbol behind a settled line is found in the source as its fault says. -/
theorem SettledLine.foundIn (hline : SettledLine lines line symbols)
    (hoccurs : Occurrence source start t after (lines ++ line) symbols) (hne : symbols ≠ [])
    (hkind : t.kind = .error) {fault : Fault} {bad : Symbol} {before rest : List Symbol}
    (hsymbol : fault.atSymbol = true) (hbad : fault.symbol = bad)
    (hpiece : nextPiece symbols = .faulty fault before bad rest) :
    fault.FoundIn source start t := by
  subst hbad
  cases fault with
  | illegalSymbol c => exact hline.found_illegal hoccurs hne hkind hsymbol hpiece
  | illegalAfterZero c => exact hline.found_illegal hoccurs hne hkind hsymbol hpiece
  | illegalDigit c base => exact hline.found_illegal hoccurs hne hkind hsymbol hpiece
  | malformedImmediate literal => cases hsymbol
  | invalidByte byte =>
    obtain ⟨hfirst, hstop⟩ := hoccurs.first?_faulty hne hpiece
    exact ⟨hfirst, hstop.symm⟩

/-- A base marker is found where it begins. -/
theorem Occurrence.foundIn_bareMarker {front : List Symbol}
    (hoccurs : Occurrence source start t after front symbols) (hne : symbols ≠ [])
    {w : List Char} {rest : List Symbol} {literal : String} (hmarker : w ∈ bareMarkers)
    (hseparates : ∀ s ∈ rest.head?, s.satisfies isSeparator = true)
    (hpiece : nextPiece symbols =
      ⟨.error, some (.malformedImmediate literal), [], w.map .char, rest⟩) :
    (Fault.malformedImmediate literal).FoundIn source start t := by
  have htaken : (nextPiece symbols).taken = w.map .char := congrArg Piece.taken hpiece
  have hrest : (nextPiece symbols).rest = rest := congrArg Piece.rest hpiece
  have hbefore : (nextPiece symbols).before = [] := congrArg Piece.before hpiece
  have hcovers := hoccurs.covers_rest hne
  refine ⟨?_, ?_, ?_⟩
  · rw [hoccurs.toNat_offset, hbefore, List.append_nil, hoccurs.start_eq]
  · rw [hoccurs.raw_eq, htaken, Utf8.bytes_map_char]
    exact List.mem_map_of_mem hmarker
  · rw [immediate_allows_iff, hoccurs.stop_eq, drop_of_symbols hcovers,
      Utf8.symbols_suffix hcovers, hrest]
    exact hseparates

end

/-- An error is found at the first place at which its line cannot go on, and its message says what
stands there. -/
theorem tokenize_error {source : List UInt8} {before after : List Token} {t : Token}
    (h : tokenize source = before ++ t :: after) (hkind : t.kind = .error) :
    (let found := t.pos.offset.toNat;
      let upTo := (source.take found).drop (lineStart source found);
      ErrorFree (tokenize upTo) ∨ ErrorFree (tokenize (upTo ++ [0x30]))) ∧
    t.pos.Exact source ∧
    ∃ fault : Fault, t.message = fault.message ∧
      (∀ other : Fault, t.message = other.message → other = fault) ∧
      fault.FoundIn source (startOffset source before) t := by
  obtain ⟨lines, line, symbols, hoccurs, hline⟩ := exists_settledLine h hkind
  have hne := hoccurs.ne_nil (by rw [hkind]; decide)
  obtain ⟨more, hcovers⟩ := hoccurs.exists_covers_before hne
  have hexact : t.pos.Exact source := by
    rw [hoccurs.pos_eq]
    exact exact_afterAll hcovers
  have hmessage {fault : Fault} (hfault : (nextPiece symbols).fault = some fault) :
      t.message = fault.message ∧ ∀ other : Fault, t.message = other.message → other = fault := by
    have hmessage : t.message = fault.message := by
      rw [hoccurs.token_eq, Piece.token, hfault]
      rfl
    exact ⟨hmessage, fun other hother => Fault.message_injective (hother.symm.trans hmessage)⟩
  have houtcome := nextPiece_outcome symbols
  generalize hpiece : nextPiece symbols = p at houtcome
  cases houtcome with
  | whole kind taken rest =>
    -- a piece without a fault is no error
    have hkind' : (nextPiece symbols).kind = .error := by
      rw [hoccurs.token_eq] at hkind
      exact hkind
    have hsome := (nextPiece_fits hne).1.kind_eq_error_iff.mp hkind'
    rw [hpiece] at hsome
    cases hsome
  | @faulty fault before' bad rest hsymbol hbad hcompletable =>
    have hbefore : (nextPiece symbols).before = before' := congrArg Piece.before hpiece
    rw [← hbefore] at hcompletable
    obtain ⟨hsame, hunique⟩ := hmessage (congrArg Piece.fault hpiece)
    exact ⟨hline.errorFree_or hoccurs hne hcompletable, hexact, fault, hsame, hunique,
      hline.foundIn hoccurs hne hkind hsymbol hbad hpiece⟩
  | bareMarker hmarker hseparates =>
    have hbefore : (nextPiece symbols).before = [] := congrArg Piece.before hpiece
    obtain ⟨hsame, hunique⟩ := hmessage (congrArg Piece.fault hpiece)
    exact ⟨hline.errorFree_or hoccurs hne (.inl hbefore), hexact, _, hsame, hunique,
      hoccurs.foundIn_bareMarker hne hmarker hseparates hpiece⟩

/-- A base marker and a digit that is none of its base, on the second line. The line up to the digit
is completed by a zero. -/
theorem tokenize_error_marked :
    let source : List UInt8 := [0x0A, 0x30, 0x62, 0x32, 0x20];
    let before : List Token := [⟨.endOfLine, ⟨1, 1, 0⟩, [0x0A], ""⟩];
    let t : Token := ⟨.error, ⟨2, 3, 3⟩, [0x30, 0x62, 0x32],
      "illegal symbol '2' in base 2 immediate value"⟩;
    let after : List Token := [⟨.endOfFile, ⟨2, 5, 5⟩, [], ""⟩];
    (tokenize source = before ++ t :: after ∧ t.kind = .error) ∧
      (let found := t.pos.offset.toNat;
        let upTo := (source.take found).drop (lineStart source found);
        ErrorFree (tokenize upTo) ∨ ErrorFree (tokenize (upTo ++ [0x30]))) ∧
      t.pos.Exact source ∧
      ∃ fault : Fault, t.message = fault.message ∧
        (∀ other : Fault, t.message = other.message → other = fault) ∧
        fault.FoundIn source (startOffset source before) t := by
  intro source before t after
  have htokens : tokenize source = before ++ t :: after := by decide +kernel
  have hkind : t.kind = .error := by decide
  exact ⟨⟨htokens, hkind⟩, tokenize_error htokens hkind⟩

end AsmLexer

import AsmLexer.Diagnostic
import AsmLexer.Proofs.Offence

/-!
# Diagnostics point at the offending character

A diagnostic with a message and a file name of one line each is five lines, in three of which the
bar of the gutter stands in the same column (`splitOn_format`, `Diagnostic.Points.gutter`). Errors
stand behind text, so the number of columns in front of an error is the number of characters that
are shown in front of it, and the mark of the last line stands below the character at fault
(`format_points`).
-/

set_option autoImplicit false

namespace AsmLexer

/-! ## Five lines -/

/-- Padding holds nothing but blanks. -/
theorem notMem_blanks {c : Char} (h : c ≠ ' ') (count : Int) : c ∉ Diagnostic.blanks count := by
  intro hmem
  exact h (List.eq_of_mem_replicate hmem)

/-- A line that is shown has no newline. -/
theorem newline_notMem_sourceLine (source : List UInt8) (line : Int) :
    '\n' ∉ Diagnostic.sourceLine (Diagnostic.shown source) line := by
  unfold Diagnostic.sourceLine
  split
  · intro hmem
    have hmem := mem_of_mem_withoutReturns hmem
    rw [Diagnostic.shown, linesOf_eq_splitOn] at hmem
    cases hline : ((Utf8.decodeLossy source).splitOn '\n')[(line - 1).toNat]? with
    | none =>
      rw [hline] at hmem
      cases hmem
    | some text =>
      rw [hline] at hmem
      exact notMem_of_mem_splitOn (List.mem_of_getElem? hline) hmem
  · exact List.not_mem_nil

/-- Nothing in a diagnostic breaks its five lines but its message and its file name. -/
theorem splitOn_format {d : Diagnostic} {fileName : String} (hmessage : '\n' ∉ d.message.toList)
    (hname : '\n' ∉ fileName.toList) :
    (d.format fileName).toList.splitOn '\n' =
      d.linesAmong (Diagnostic.shown d.source) fileName := by
  have hblanks := @notMem_blanks '\n' (by decide)
  have hnumber (i : Int) : '\n' ∉ i.repr.toList := notMem_toString (by decide) (by decide)
  have hline := newline_notMem_sourceLine d.source d.pos.line
  rw [Diagnostic.format, Diagnostic.formatAmong, String.toList_ofList]
  apply List.splitOn_intercalate
  · unfold Diagnostic.linesAmong
    simp only [List.forall_mem_cons]
    simp only [List.mem_append, List.mem_cons, not_or]
    simp [hblanks, hnumber, hline, hmessage, hname]
  · exact List.cons_ne_nil _ _

/-- The first place of a character is behind what holds no such character. -/
theorem idxOf_of_front {c : Char} {front : List Char} (h : c ∉ front) (more : List Char) :
    c ∈ front ++ c :: more ∧ (front ++ c :: more).idxOf c = front.length := by
  refine ⟨List.mem_append_right _ List.mem_cons_self, ?_⟩
  rw [List.idxOf_append_of_notMem h, List.idxOf_cons_self, Nat.add_zero]

/-- The gutter is as wide as the number of the line. -/
theorem bars_align {number : List Char} (h : '|' ∉ number) (shown more : List Char) :
    let gutter := Diagnostic.blanks (number.length + 1) ++ ['|'];
    ∀ line ∈ [gutter, number ++ " | ".toList ++ shown, gutter ++ more],
      '|' ∈ line ∧ line.idxOf '|' = number.length + 1 := by
  intro gutter
  have hwidth : (Diagnostic.blanks (number.length + 1)).length = number.length + 1 := by
    rw [Diagnostic.blanks, List.length_replicate]
    omega
  have hblanks := notMem_blanks (by decide : '|' ≠ ' ') (number.length + 1)
  have hgutter (more : List Char) :
      '|' ∈ gutter ++ more ∧ (gutter ++ more).idxOf '|' = number.length + 1 := by
    rw [List.append_assoc, List.singleton_append, ← hwidth]
    exact idxOf_of_front hblanks more
  have hnumber : '|' ∉ number ++ [' '] := by
    rw [List.mem_append, not_or]
    exact ⟨h, by decide⟩
  have hsource : number ++ " | ".toList ++ shown = (number ++ [' ']) ++ '|' :: ' ' :: shown := by
    rw [List.append_assoc, List.append_assoc]
    rfl
  have hfront := idxOf_of_front hnumber (' ' :: shown)
  rw [List.forall_mem_cons, List.forall_mem_cons, List.forall_mem_singleton, hsource]
  refine ⟨?_, ?_, hgutter more⟩
  · have hbare := hgutter []
    rwa [List.append_nil] at hbare
  · rwa [List.length_append] at hfront

/-- The mark stands as far behind the gutter as its column says. -/
theorem mark_below {number text : List Char} {column : Int} (h : column = 1 + text.length) :
    let fifth := Diagnostic.blanks (number.length + 1) ++ ['|'] ++
      ' ' :: Diagnostic.blanks (column - 1) ++ ['^'];
    '^' ∈ fifth ∧ fifth.idxOf '^' = (number ++ " | ".toList ++ text).length := by
  intro fifth
  have hblanks := @notMem_blanks '^' (by decide)
  have hfront : '^' ∉ Diagnostic.blanks (number.length + 1) ++ ['|'] ++
      ' ' :: Diagnostic.blanks (column - 1) := by
    simp [hblanks]
  obtain ⟨hmem, hidx⟩ := idxOf_of_front hfront []
  refine ⟨hmem, hidx.trans ?_⟩
  have hbar : " | ".toList.length = 3 := by decide
  simp only [Diagnostic.blanks, List.length_append, List.length_cons, List.length_replicate,
    List.length_nil, hbar]
  omega

/-! ## The mark -/

/-- The last three lines of the diagnostic of an error, which show it in its source. -/
structure Diagnostic.Points (source : List UInt8) (t : Token) (third fourth fifth : List Char) :
    Prop where
  /-- The bar of the gutter is in the same column. -/
  gutter : ∃ column, ∀ line ∈ [third, fourth, fifth], '|' ∈ line ∧ line.idxOf '|' = column
  /-- The line shown is that of the error, which is there. -/
  shows : 1 ≤ t.pos.line ∧ ∃ line, (source.splitOn 0x0A)[(t.pos.line - 1).toNat]? = some line ∧
    fourth = (toString t.pos.line).toList ++ " | ".toList ++
      withoutReturns (Utf8.decodeLossy line)
  /-- The character above the mark is the one at fault. -/
  marks : ∃ fault : Fault, t.message = fault.message ∧
    Utf8.first? (source.drop t.pos.offset.toNat) = some fault.symbol ∧
    '^' ∈ fifth ∧ fourth[fifth.idxOf '^']? = some fault.symbol.shown
  /-- In front of it stands the text of the line up to the error. -/
  text : ∃ text, fourth.take (fifth.idxOf '^') =
      (toString t.pos.line).toList ++ " | ".toList ++ text ∧
    (source.take t.pos.offset.toNat).drop (lineStart source t.pos.offset.toNat) =
      Utf8.encode text

section

variable {source : List UInt8} {t : Token} {fault : Fault} {lines : List Symbol} {text : List Char}

/-- In front of an error the bytes of a source are those of whole lines and of the encoded text of
one more, and at it the symbol at fault is read. -/
theorem Offence.exists_bytes (h : Offence (Utf8.symbols source) t fault (lines ++ text.map .char)) :
    ∃ rest, source = lines.flatMap Symbol.bytes ++ (Utf8.encode text ++ rest) ∧
      Utf8.first? rest = some fault.symbol := by
  obtain ⟨more, hcovers⟩ := h.covers
  refine ⟨(fault.symbol :: more).flatMap Symbol.bytes, ?_, ?_⟩
  · conv_lhs => rw [← Utf8.bytes_symbols source, hcovers]
    rw [List.flatMap_append, List.flatMap_append, Utf8.bytes_map_char, List.append_assoc]
  · rw [first?_eq_head?, Utf8.symbols_suffix hcovers]
    rfl

/-- Text without a newline has none among its symbols. -/
theorem newline_notMem_map_char (h : '\n' ∉ text) :
    Symbol.char '\n' ∉ text.map Symbol.char := by
  intro hmem
  obtain ⟨c, hc, hnewline⟩ := List.mem_map.mp hmem
  cases hnewline
  exact h hc

/-- The line of an error counts the newlines of the lines in front of it. -/
theorem Offence.line_eq (h : Offence (Utf8.symbols source) t fault (lines ++ text.map .char))
    (htext : '\n' ∉ text) : t.pos.line = 1 + (lines.flatMap Symbol.bytes).count 0x0A := by
  obtain ⟨more, hcovers⟩ := h.covers
  have hread : ∀ s ∈ lines, s ∈ Utf8.symbols source := by
    intro s hs
    rw [hcovers, List.append_assoc]
    exact List.mem_append_left _ hs
  have hnone := List.count_eq_zero.mpr (newline_notMem_map_char htext)
  rw [h.pos, Position.line_afterAll, List.count_append, hnone, count_newline_flatMap hread]
  rfl

/-- The line of an error is shown as the text in front of it and the character at fault. -/
theorem Offence.exists_line (h : Offence (Utf8.symbols source) t fault (lines ++ text.map .char))
    (htext : '\n' ∉ text) (hlines : WholeLines (.char '\n') lines) :
    ∃ line more, (source.splitOn 0x0A)[(t.pos.line - 1).toNat]? = some line ∧
      Utf8.decodeLossy line = text ++ fault.symbol.shown :: more := by
  obtain ⟨rest, hsource, hfirst⟩ := h.exists_bytes
  have hindex : (t.pos.line - 1).toNat = (lines.flatMap Symbol.bytes).count 0x0A := by
    rw [h.line_eq htext]
    omega
  have hbytes : WholeLines 0x0A (lines.flatMap Symbol.bytes) := by
    rcases hlines with rfl | ⟨init, rfl⟩
    · exact .inl rfl
    · exact .inr ⟨init.flatMap Symbol.bytes, List.flatMap_append⟩
  have hshown : fault.symbol.shown ≠ '\n' := by
    have hne := h.symbol_ne_newline
    cases hsymbol : fault.symbol with
    | char c =>
      rw [hsymbol] at hne
      rintro rfl
      exact hne rfl
    | malformed byte =>
      show Utf8.replacement ≠ '\n'
      decide
  rw [hindex, hsource]
  exact exists_line_decodeLossy hbytes htext hfirst hshown

/-- A line of a source is shown as its own bytes are decoded. -/
theorem sourceLine_eq {number : Int} (hnumber : 1 ≤ number) {line : List UInt8}
    (hline : (source.splitOn 0x0A)[(number - 1).toNat]? = some line) :
    Diagnostic.sourceLine (Diagnostic.shown source) number =
      withoutReturns (Utf8.decodeLossy line) := by
  rw [Diagnostic.sourceLine, if_pos hnumber, Diagnostic.shown, linesOf_decodeLossy,
    List.getElem?_map, hline]
  rfl

/-- The column of an error counts the characters in front of it on its line. -/
theorem Offence.column_eq (h : Offence (Utf8.symbols source) t fault (lines ++ text.map .char))
    (htext : '\n' ∉ text) (hlines : WholeLines (.char '\n') lines) :
    t.pos.column = 1 + text.length := by
  rw [h.pos, column_of_lines (newline_notMem_map_char htext) hlines, List.length_map]

/-- The text in front of an error is what its line holds up to the place of the error. -/
theorem Offence.text_eq (h : Offence (Utf8.symbols source) t fault (lines ++ text.map .char))
    (htext : '\n' ∉ text) (hlines : WholeLines (.char '\n') lines) :
    Utf8.first? (source.drop t.pos.offset.toNat) = some fault.symbol ∧
      (source.take t.pos.offset.toNat).drop (lineStart source t.pos.offset.toNat) =
        Utf8.encode text := by
  obtain ⟨more, hcovers⟩ := h.covers
  rw [h.pos, Position.offset_origin_afterAll, Int.toNat_natCast]
  constructor
  · exact first?_drop_of_symbols hcovers
  · rw [lineStart_of_symbols hcovers (newline_notMem_map_char htext) hlines,
      take_of_symbols hcovers, List.flatMap_append, List.drop_left, Utf8.bytes_map_char]

/-- The three lines that show an error point at it. -/
theorem Offence.points (h : Offence (Utf8.symbols source) t fault (lines ++ text.map .char))
    (htext : '\n' ∉ text) (hlines : WholeLines (.char '\n') lines) :
    let number := (toString t.pos.line).toList;
    let gutter := Diagnostic.blanks (number.length + 1) ++ ['|'];
    Diagnostic.Points source t gutter
      (number ++ " | ".toList ++ Diagnostic.sourceLine (Diagnostic.shown source) t.pos.line)
      (gutter ++ ' ' :: Diagnostic.blanks (t.pos.column - 1) ++ ['^']) := by
  intro number gutter
  obtain ⟨line, more, hline, hshown⟩ := h.exists_line htext hlines
  have hpos : 1 ≤ t.pos.line := by
    rw [h.line_eq htext]
    omega
  have hcolumn := h.column_eq htext hlines
  obtain ⟨hfirst, htaken⟩ := h.text_eq htext hlines
  have hsource := sourceLine_eq hpos hline
  obtain ⟨rest, hrest⟩ := exists_withoutReturns h.shown_ne_return text more
  obtain ⟨hmem, hidx⟩ := @mark_below number text _ hcolumn
  have hfourth : number ++ " | ".toList ++
      Diagnostic.sourceLine (Diagnostic.shown source) t.pos.line =
        (number ++ " | ".toList ++ text) ++ fault.symbol.shown :: rest := by
    rw [hsource, hshown, hrest, List.append_assoc _ text]
  have hbar : '|' ∉ number := notMem_toString (by decide) (by decide)
  refine ⟨⟨number.length + 1, ?_⟩, ⟨hpos, line, hline, ?_⟩,
    ⟨fault, h.message, hfirst, hmem, ?_⟩, ⟨text, ?_, htaken⟩⟩
  · rw [List.append_assoc gutter]
    exact bars_align hbar _ _
  · rw [hsource]
  · rw [hfourth, hidx, List.getElem?_append_right (Nat.le_refl _), Nat.sub_self]
    rfl
  · rw [hfourth, hidx, List.take_left]

end

/-- The diagnostic of any error token is five lines, and it points at the character at fault. -/
theorem format_points {source : List UInt8} {t : Token} (ht : t ∈ tokenize source)
    (hkind : t.kind = .error) {fileName : String} (hname : '\n' ∉ fileName.toList) :
    ∃ (d : Diagnostic) (first second third fourth fifth : List Char),
      Diagnostic.ofToken? t source = some d ∧
      (d.format fileName).toList.splitOn '\n' = [first, second, third, fourth, fifth] ∧
      Diagnostic.Points source t third fourth fifth := by
  obtain ⟨fault, front, hoffence⟩ := exists_offence_of_mem ht hkind
  obtain ⟨lines, text, rfl, htext, hlines⟩ := hoffence.text
  have hmessage : '\n' ∉ t.message.toList := by
    rw [hoffence.message]
    exact hoffence.newline_notMem
  have hd : Diagnostic.ofToken? t source = some ⟨t.message, t.pos, source⟩ := if_pos hkind
  exact ⟨_, _, _, _, _, _, hd, splitOn_format hmessage hname, hoffence.points htext hlines⟩

/-- A dollar sign, with which no token begins, on a line behind a comment that is malformed. -/
theorem format_points_dollar :
    let source : List UInt8 := [0x3B, 0xFF, 0x0A, 0x24];
    let t : Token := ⟨.error, ⟨2, 1, 3⟩, [0x24], (Fault.illegalSymbol '$').message⟩;
    (t ∈ tokenize source ∧ t.kind = .error ∧ '\n' ∉ "input.s".toList) ∧
      ∃ (d : Diagnostic) (first second third fourth fifth : List Char),
        Diagnostic.ofToken? t source = some d ∧
        (d.format "input.s").toList.splitOn '\n' = [first, second, third, fourth, fifth] ∧
        Diagnostic.Points source t third fourth fifth := by
  intro source t
  have hread : Utf8.symbols source =
      [.char ';', .malformed 0xFF, .char '\n', .char '$'] := by decide +kernel
  have hcomment : nextPiece [.char ';', .malformed 0xFF, .char '\n', .char '$'] =
      .whole .comment [.char ';', .malformed 0xFF] [.char '\n', .char '$'] := by
    rw [nextPiece, State.piece]
    show State.comment.piece _ _ = _
    rw [State.piece]
    rfl
  have hdollar : nextPiece [.char '$'] = .faulty (.illegalSymbol '$') [] (.char '$') [] := by
    rw [nextPiece, State.piece]
    rfl
  have hmem : t ∈ tokenize source := by
    rw [tokenize_eq, hread, tokensAt_of_ne_nil _ (List.cons_ne_nil _ _), hcomment]
    apply List.mem_cons_of_mem
    show t ∈ tokensAt _ [.char '\n', .char '$']
    rw [tokensAt_of_ne_nil _ (List.cons_ne_nil _ _), nextPiece_newline]
    apply List.mem_cons_of_mem
    show t ∈ tokensAt _ [.char '$']
    rw [tokensAt_of_ne_nil _ (List.cons_ne_nil _ _), hdollar]
    exact List.mem_cons_self
  have hname : '\n' ∉ "input.s".toList := by decide
  exact ⟨⟨hmem, rfl, hname⟩, format_points hmem rfl hname⟩

end AsmLexer

import AsmLexer.Editor
import AsmLexer.Proofs.Diagnostic
import AsmLexer.Proofs.FaultMessage
import AsmLexer.Proofs.Reconstruction
import AsmLexer.Proofs.Report
import Mathlib.Data.List.Count

/-!
# Marks cover the character at fault

The scanner recovers from an error at the end of its line, so no line has two errors
(`errorsOf_pairwise_line`). A text reads as its characters, none of them malformed, so the place of
an error says how many lines and characters stand in front of the one at fault
(`covers_of_offence`). Counted from zero, these are indices into the lines of the text and into one
of them, and a mark covers what stands there (`pointInto_marksOf`).
-/

set_option autoImplicit false

namespace AsmLexer

/-! ## One error on a line -/

/-- A line ends with a newline or with the source, not with an error. -/
theorem EndsLine.kind_ne_error {source front : List UInt8} {stop : Stretch} {later : List Stretch}
    (h : EndsLine source front stop later) : stop.token.kind ≠ .error := by
  rcases h with ⟨hline, -⟩ | ⟨hfile, -⟩
  · rw [hline]
    decide
  · rw [hfile]
    decide

/-- An error is on a later line than the errors in front of it. -/
theorem errorsOf_pairwise_line (source : List UInt8) :
    (errorsOf (tokenize source)).Pairwise fun t u => t.pos.line < u.pos.line := by
  have hreconstruction := reconstruction_stretchesAt source
  rw [errorsOf, tokenize_eq, ← map_token_stretchesAt, List.pairwise_filter, List.pairwise_map]
  apply pairwise_of_splits
  intro before s later h t ht hs hkind
  have hs : s.token.kind = .error := by simpa using hs
  have hkind : t.token.kind = .error := by simpa using hkind
  obtain ⟨stop, more, rfl, hstop, hlines⟩ := (hreconstruction.placed before s later h).recovers hs
  rcases List.mem_cons.mp ht with rfl | ht
  · exact absurd hkind hstop.kind_ne_error
  · exact hlines t ht

/-! ## The character at fault -/

/-- No message about a character says that a byte is malformed. -/
theorem Fault.message_ne_invalidByte {fault : Fault} {c : Char} (h : fault.symbol = .char c)
    (byte : UInt8) : fault.message ≠ (Fault.invalidByte byte).message := by
  intro hmessage
  rw [Fault.message_injective hmessage] at h
  cases h

/-- A mark inside a text, on the one character that its message is about. -/
structure Mark.Covers (m : Mark) (text : List Char) : Prop where
  start_nonneg : 0 ≤ m.start.1 ∧ 0 ≤ m.start.2
  stop_eq : m.stop = (m.start.1, m.start.2 + 1)
  /-- The mark is on a row of the text and does not go behind its end, and the character in it is
  the one at fault. -/
  covered : ∃ row c, ∃ fault : Fault, (text.splitOn '\n')[m.start.1.toNat]? = some row ∧
    m.stop.2 ≤ row.length ∧ row[m.start.2.toNat]? = some c ∧
    fault.symbol = .char c ∧ m.message = fault.message
  wellFormed : ∀ byte, m.message ≠ (Fault.invalidByte byte).message

section

variable {text : List Char} {t : Token} {fault : Fault} {front : List Symbol}

/-- In a text an error stands behind some whole lines and the beginning of one more, and at a
character. -/
theorem Offence.exists_chars (h : Offence (text.map .char) t fault front) :
    ∃ (lines line : List Char) (c : Char) (rest : List Char),
      text = lines ++ (line ++ c :: rest) ∧ front = (lines ++ line).map .char ∧
      fault.symbol = .char c ∧ '\n' ∉ line ∧ c ≠ '\n' ∧ WholeLines '\n' lines := by
  obtain ⟨more, hcovers⟩ := h.covers
  obtain ⟨read, ahead, rfl, rfl, hahead⟩ := List.map_eq_append_iff.mp hcovers
  obtain ⟨c, rest, rfl, hc, -⟩ := List.map_eq_cons_iff.mp hahead
  obtain ⟨lines, line, rfl, hline, hlines⟩ := exists_lines '\n' read
  have hnewline : c ≠ '\n' := by
    rintro rfl
    exact h.symbol_ne_newline hc.symm
  exact ⟨lines, line, c, rest, List.append_assoc _ _ _, rfl, hc.symm, hline, hnewline, hlines⟩

/-- The place of an error counts the lines and the characters in front of it. -/
theorem Offence.pos_eq {lines line : List Char}
    (h : Offence (text.map .char) t fault ((lines ++ line).map .char)) (hline : '\n' ∉ line)
    (hlines : WholeLines '\n' lines) :
    t.pos.line - 1 = lines.count '\n' ∧ t.pos.column - 1 = line.length := by
  have hinjective : Function.Injective Symbol.char := fun _ _ hsame => Symbol.char.inj hsame
  have hsymbols := newline_notMem_map_char hline
  have hwhole : WholeLines (.char '\n') (lines.map Symbol.char) := by
    rcases hlines with rfl | ⟨init, rfl⟩
    · exact .inl rfl
    · exact .inr ⟨init.map .char, List.map_append⟩
  have hnone := List.count_eq_zero.mpr hline
  have horigin : Position.origin.line = 1 := rfl
  constructor
  · rw [h.pos, Position.line_afterAll, List.count_map_of_injective _ _ hinjective,
      List.count_append, hnone, horigin]
    omega
  · rw [h.pos, List.map_append, column_of_lines hsymbols hwhole, List.length_map]
    omega

/-- The mark of an error token is on the character at fault. -/
theorem covers_of_offence (h : Offence (text.map .char) t fault front) :
    (Mark.ofToken t).Covers text := by
  obtain ⟨lines, line, c, rest, rfl, rfl, hc, hline, hnewline, hlines⟩ := h.exists_chars
  obtain ⟨hfirst, hsecond⟩ := h.pos_eq hline hlines
  have hfirst : (Mark.ofToken t).start.1 = lines.count '\n' := hfirst
  have hsecond : (Mark.ofToken t).start.2 = line.length := hsecond
  have hfront : '\n' ∉ line ++ [c] := by
    rw [List.mem_append, List.mem_singleton, not_or]
    exact ⟨hline, Ne.symm hnewline⟩
  obtain ⟨behind, hhead⟩ := exists_head?_splitOn hfront rest
  have hsplit : ((lines ++ (line ++ c :: rest)).splitOn '\n')[(Mark.ofToken t).start.1.toNat]? =
      some (line ++ c :: behind) := by
    rw [hfirst, Int.toNat_natCast, getElem?_splitOn_append hlines]
    simpa only [List.append_assoc, List.singleton_append] using hhead
  refine ⟨by omega, rfl, ⟨_, c, fault, hsplit, ?_, ?_, hc, h.message⟩, ?_⟩
  · show (Mark.ofToken t).start.2 + 1 ≤ _
    rw [hsecond, List.length_append, List.length_cons]
    omega
  · rw [hsecond, Int.toNat_natCast, List.getElem?_append_right (Nat.le_refl _), Nat.sub_self]
    rfl
  · intro byte
    show t.message ≠ _
    rw [h.message]
    exact Fault.message_ne_invalidByte hc byte

end

/-! ## All marks of a text -/

/-- Marks in the order of their lines, each on the character that it is about. -/
structure PointInto (marks : List Mark) (text : List Char) : Prop where
  lines_increase : marks.Pairwise fun m n => m.start.1 < n.start.1
  covers : ∀ m ∈ marks, m.Covers text

/-- The marks of a text go down its lines, each on the character at fault. -/
theorem pointInto_marksOf (text : String) : PointInto (marksOf text) text.toList where
  lines_increase := by
    show ((errorsOf _).map Mark.ofToken).Pairwise _
    rw [List.pairwise_map]
    apply (errorsOf_pairwise_line _).imp
    intro t u hlines
    exact Int.sub_lt_sub_right hlines 1
  covers := by
    intro m hm
    obtain ⟨t, ht, rfl⟩ := List.mem_map.mp hm
    obtain ⟨hmem, hkind⟩ := List.mem_filter.mp ht
    obtain ⟨fault, front, hoffence⟩ := exists_offence_of_mem hmem (of_decide_eq_true hkind)
    rw [Utf8.symbols_encode] at hoffence
    exact covers_of_offence hoffence

end AsmLexer

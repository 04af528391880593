import AsmLexer.Proofs.Utf8.Symbols
import AsmLexer.Proofs.Text.Lines

/-!
# The text that is shown of a source

The text that is shown of a source agrees with its symbols only so far as the source is
well-formed: the rest of an ill-formed sequence is one character of the text and can be several
symbols. Two facts survive. Newlines are the same in both, so the lines of the text are the lines
of the source, each shown for itself (`linesOf_decodeLossy`). And a text in front of any bytes is
shown as it is, with the next symbol behind it (`decodeLossy_encode_append`,
`head?_decodeLossy`).
-/

set_option autoImplicit false

namespace AsmLexer

/-- The character that is shown of a symbol. -/
def Symbol.shown : Symbol → Char
  | .char c => c
  | .malformed _ => Utf8.replacement

namespace Utf8

/-- Of no bytes nothing is shown. -/
theorem decodeLossy_nil : decodeLossy [] = [] := by
  rw [decodeLossy]

/-- The first symbol is shown, and then what stands behind the bytes that fit together. -/
theorem decodeLossy_cons (byte : UInt8) (rest : List UInt8) :
    decodeLossy (byte :: rest) =
      (symbolAt byte rest).shown :: decodeLossy (rest.drop (fitting byte rest - 1)) := by
  rw [decodeLossy]
  cases symbolAt byte rest <;> rfl

/-- What is shown first is the first symbol. -/
theorem head?_decodeLossy (bytes : List UInt8) :
    (decodeLossy bytes).head? = (first? bytes).map Symbol.shown := by
  cases bytes with
  | nil => rw [decodeLossy_nil]; rfl
  | cons byte rest => rw [decodeLossy_cons]; rfl

/-- No more bytes fit together than there are. -/
theorem fitting_le (byte : UInt8) (rest : List UInt8) : fitting byte rest - 1 ≤ rest.length := by
  unfold fitting
  split
  · exact Nat.zero_le _
  · rename_i lead hlead
    have htail := (lead.tail_isPrefix rest).length_le
    omega

/-! ## Text in front of any bytes -/

/-- The bytes of a character fit together, whatever stands behind them. -/
theorem fitting_of_encoding {c : Char} {byte : UInt8} {tail : List UInt8}
    (h : String.utf8EncodeChar c = byte :: tail) (rest : List UInt8) :
    fitting byte (tail ++ rest) = 1 + tail.length := by
  by_cases hc : c.toNat < 0x80
  · have hone := encoding_one hc
    rw [Char.ofNat_toNat, h, List.cons.injEq] at hone
    obtain ⟨hbyte, rfl⟩ := hone
    have hlead : lead? byte = none := by
      rw [hbyte]
      unfold lead?
      rw [if_pos (by rw [UInt8.toNat_ofNat']; omega)]
    simp only [fitting, hlead, List.length_nil]
  · obtain ⟨first, more, lead, hencoding, hlead, hfits, -⟩ :=
      exists_fits_of_encoding (Nat.le_of_not_lt hc)
    obtain ⟨rfl, rfl⟩ := List.cons.inj (h.symm.trans hencoding)
    have hcases := lead?_cases hlead
    simp only [fitting, hlead, hfits.tail_append (by omega) rest]

/-- A character in front of any bytes is shown as itself. -/
theorem decodeLossy_encodeChar_append (c : Char) (rest : List UInt8) :
    decodeLossy (String.utf8EncodeChar c ++ rest) = c :: decodeLossy rest := by
  obtain ⟨byte, tail, htail⟩ := List.exists_cons_of_ne_nil (@String.utf8EncodeChar_ne_nil c)
  rw [htail, List.cons_append, decodeLossy_cons, symbolAt_of_encoding htail,
    fitting_of_encoding htail, Nat.add_sub_cancel_left, List.drop_left]
  rfl

/-- Text in front of any bytes is shown as itself. -/
theorem decodeLossy_encode_append (cs : List Char) (rest : List UInt8) :
    decodeLossy (encode cs ++ rest) = cs ++ decodeLossy rest := by
  induction cs with
  | nil => rfl
  | cons c cs ih =>
    rw [encode, List.flatMap_cons, List.append_assoc, decodeLossy_encodeChar_append, ← encode, ih]
    rfl

/-- Text is shown as itself. -/
theorem decodeLossy_encode (cs : List Char) : decodeLossy (encode cs) = cs := by
  have happend := decodeLossy_encode_append cs []
  rwa [List.append_nil, decodeLossy_nil, List.append_nil] at happend

/-! ## Lines -/

/-- Bytes of ASCII fit to nothing in front of them. -/
theorem fitting_append_cons (byte stop : UInt8) (hstop : stop.toNat < 0x80)
    (rest after : List UInt8) : fitting byte (rest ++ stop :: after) = fitting byte rest := by
  unfold fitting
  cases hlead : lead? byte with
  | none => rfl
  | some lead => simp only [Lead.tail_append_cons hlead hstop]

/-- What is shown on both sides of a newline does not depend on the other side. -/
theorem decodeLossy_append_newline (bytes after : List UInt8) :
    decodeLossy (bytes ++ 0x0A :: after) = decodeLossy bytes ++ '\n' :: decodeLossy after := by
  have hnewline : (0x0A : UInt8).toNat < 0x80 := by decide
  induction bytes using decodeLossy.induct with
  | case1 =>
    rw [decodeLossy_nil]
    exact decodeLossy_encode_append ['\n'] after
  | case2 byte rest ih =>
    rw [List.cons_append, decodeLossy_cons, decodeLossy_cons,
      symbolAt_append_cons byte 0x0A hnewline, fitting_append_cons byte 0x0A hnewline,
      List.drop_append_of_le_length (fitting_le byte rest), ih, List.cons_append]

/-- No newline is shown of bytes that have none. -/
theorem newline_notMem_decodeLossy {bytes : List UInt8} (h : 0x0A ∉ bytes) :
    '\n' ∉ decodeLossy bytes := by
  induction bytes using decodeLossy.induct with
  | case1 => rw [decodeLossy_nil]; exact List.not_mem_nil
  | case2 byte rest ih =>
    rw [List.mem_cons, not_or] at h
    rw [decodeLossy_cons, List.mem_cons, not_or]
    refine ⟨?_, ih fun hmem => h.2 (List.mem_of_mem_drop hmem)⟩
    intro hshown
    cases hsymbol : symbolAt byte rest with
    | malformed bad =>
      rw [hsymbol] at hshown
      have hreplacement : '\n' ≠ replacement := by decide
      exact hreplacement hshown
    | char c =>
      -- the newline is the only character whose encoding holds the byte of the newline
      have hbytes := bytes_symbolAt byte rest
      rw [hsymbol] at hshown hbytes
      have hchar : c = '\n' := hshown.symm
      rw [hchar] at hbytes
      exact h.1 (List.cons.inj hbytes).1

end Utf8

/-- The lines of the text of a source are the texts of its lines. -/
theorem linesOf_decodeLossy (source : List UInt8) :
    linesOf (Utf8.decodeLossy source) = (source.splitOn 0x0A).map Utf8.decodeLossy := by
  rw [linesOf_eq_splitOn]
  induction source using lines_induction with
  | single line hline =>
    rw [List.splitOn_eq_singleton hline,
      List.splitOn_eq_singleton (Utf8.newline_notMem_decodeLossy hline)]
    rfl
  | cons line more hline ih =>
    rw [Utf8.decodeLossy_append_newline, List.splitOn_append_cons_self_of_not_mem hline,
      List.splitOn_append_cons_self_of_not_mem (Utf8.newline_notMem_decodeLossy hline), ih]
    rfl

/-- As many newlines are shown as there are. -/
theorem count_newline_decodeLossy (bytes : List UInt8) :
    (Utf8.decodeLossy bytes).count '\n' = bytes.count 0x0A := by
  have hlength := congrArg List.length (linesOf_decodeLossy bytes)
  rw [linesOf_eq_splitOn, List.length_map, length_splitOn, length_splitOn] at hlength
  omega

/-- The line behind some whole ones is shown as the text with which it begins, and then the symbol
behind that text. -/
theorem exists_line_decodeLossy {lines rest : List UInt8} {text : List Char} {s : Symbol}
    (hlines : WholeLines 0x0A lines) (htext : '\n' ∉ text)
    (hfirst : Utf8.first? rest = some s) (hs : s.shown ≠ '\n') :
    ∃ line more, ((lines ++ (Utf8.encode text ++ rest)).splitOn 0x0A)[lines.count 0x0A]? =
      some line ∧ Utf8.decodeLossy line = text ++ s.shown :: more := by
  obtain ⟨after, hafter⟩ : ∃ after, Utf8.decodeLossy rest = s.shown :: after := by
    have hhead := Utf8.head?_decodeLossy rest
    rw [hfirst] at hhead
    exact List.head?_eq_some_iff.mp hhead
  -- the whole lines are shown as as many lines
  obtain ⟨front, hfront, hcount, hdecode⟩ : ∃ front : List Char,
      WholeLines '\n' front ∧ front.count '\n' = lines.count 0x0A ∧
      Utf8.decodeLossy (lines ++ (Utf8.encode text ++ rest)) =
        front ++ (text ++ s.shown :: after) := by
    rw [← hafter, ← Utf8.decodeLossy_encode_append]
    rcases hlines with rfl | ⟨init, rfl⟩
    · exact ⟨[], .inl rfl, rfl, rfl⟩
    · refine ⟨Utf8.decodeLossy init ++ ['\n'], .inr ⟨_, rfl⟩, ?_, ?_⟩
      · rw [List.count_append, List.count_append, count_newline_decodeLossy]
        rfl
      · simp only [List.append_assoc, List.singleton_append, Utf8.decodeLossy_append_newline]
  have hnewline : '\n' ∉ text ++ [s.shown] := by
    rw [List.mem_append, List.mem_singleton, not_or]
    exact ⟨htext, hs.symm⟩
  obtain ⟨more, hmore⟩ := exists_head?_splitOn hnewline after
  rw [List.append_assoc, List.append_assoc] at hmore
  have hline := getElem?_splitOn_append hfront (text ++ s.shown :: after)
  rw [← hdecode, ← linesOf_eq_splitOn, linesOf_decodeLossy, List.getElem?_map, hcount] at hline
  obtain ⟨line, hline, hshown⟩ := Option.map_eq_some_iff.mp (hline.trans hmore)
  exact ⟨line, more, hline, hshown⟩

end AsmLexer

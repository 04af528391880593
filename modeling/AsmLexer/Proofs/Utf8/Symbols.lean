import AsmLexer.Proofs.Utf8.Encoding

/-!
# The symbols of a source

Reading a source as symbols loses nothing (`bytes_symbols`), and an encoded text is read as its
characters (`symbols_encode_append`). No symbol reaches across a byte of the first 128, so a source
is read on the two sides of such a byte as if the other side were not there
(`symbols_append_cons`). For the newline this means that lines can be read one by one.
-/

set_option autoImplicit false

namespace AsmLexer

/-! ## The bytes of one symbol -/

/-- The size of a symbol is the number of its bytes. -/
theorem Symbol.length_bytes (s : Symbol) : s.bytes.length = s.size := by
  cases s with
  | char c => exact String.length_utf8EncodeChar c
  | malformed byte => rfl

/-- Every symbol has a byte at least. -/
theorem Symbol.size_pos (s : Symbol) : 0 < s.size := by
  cases s with
  | char c => exact c.utf8Size_pos
  | malformed byte => exact Nat.one_pos

namespace Utf8

/-- No bytes have no symbols. -/
theorem symbols_nil : symbols [] = [] := by
  rw [symbols]

/-- The first symbol takes its bytes, and the others come behind them. -/
theorem symbols_cons (byte : UInt8) (rest : List UInt8) :
    symbols (byte :: rest) =
      symbolAt byte rest :: symbols (rest.drop ((symbolAt byte rest).size - 1)) := by
  rw [symbols]

/-- A symbol does not take more bytes than there are. -/
theorem size_symbolAt_le (byte : UInt8) (rest : List UInt8) :
    (symbolAt byte rest).size ≤ rest.length + 1 := by
  have hlength := congrArg List.length (bytes_symbolAt byte rest)
  rw [List.length_append, Symbol.length_bytes, List.length_drop, List.length_cons] at hlength
  have := (symbolAt byte rest).size_pos
  omega

/-- Nothing of a source is lost. -/
theorem bytes_symbols (source : List UInt8) : (symbols source).flatMap Symbol.bytes = source := by
  induction source using symbols.induct with
  | case1 => simp [symbols_nil]
  | case2 byte rest symbol ih =>
    rw [symbols_cons, List.flatMap_cons, ih, bytes_symbolAt]

/-- There are symbols unless the source is empty. -/
theorem symbols_eq_nil_iff {source : List UInt8} : symbols source = [] ↔ source = [] := by
  constructor
  · intro h
    rw [← bytes_symbols source, h, List.flatMap_nil]
  · rintro rfl
    exact symbols_nil

/-- The bytes behind any symbol are read as the symbols behind it. -/
theorem symbols_suffix {source : List UInt8} {before after : List Symbol}
    (h : symbols source = before ++ after) : symbols (after.flatMap Symbol.bytes) = after := by
  induction before generalizing source with
  | nil => rw [← List.nil_append after, ← h, bytes_symbols]
  | cons s before ih =>
    cases source with
    | nil =>
      rw [symbols_nil] at h
      cases h
    | cons byte rest =>
      rw [symbols_cons, List.cons_append, List.cons.injEq] at h
      exact ih h.2

/-- An encoded character is one symbol. -/
theorem symbols_encodeChar_append (c : Char) (rest : List UInt8) :
    symbols (String.utf8EncodeChar c ++ rest) = .char c :: symbols rest := by
  obtain ⟨byte, tail, htail⟩ := List.exists_cons_of_ne_nil (@String.utf8EncodeChar_ne_nil c)
  have hsize : c.utf8Size - 1 = tail.length := by
    rw [← String.length_utf8EncodeChar, htail, List.length_cons, Nat.add_sub_cancel]
  rw [htail, List.cons_append, symbols_cons, symbolAt_of_encoding htail]
  simp only [Symbol.size, hsize, List.drop_left]

/-- Texts in a row are encoded in a row. -/
theorem encode_append (cs ds : List Char) : encode (cs ++ ds) = encode cs ++ encode ds :=
  List.flatMap_append

/-- An encoded text is read as its characters. -/
theorem symbols_encode_append (cs : List Char) (rest : List UInt8) :
    symbols (encode cs ++ rest) = cs.map .char ++ symbols rest := by
  induction cs with
  | nil => rfl
  | cons c cs ih =>
    rw [encode, List.flatMap_cons, List.append_assoc, symbols_encodeChar_append, ← encode, ih]
    rfl

/-- The symbols of an encoded text are its characters. -/
theorem symbols_encode (cs : List Char) : symbols (encode cs) = cs.map .char := by
  simpa [symbols_nil] using symbols_encode_append cs []

/-- A byte that is malformed in front of some bytes is so in front of fewer of them. -/
theorem symbolAt_of_append {byte bad : UInt8} {rest more : List UInt8}
    (h : symbolAt byte (rest ++ more) = .malformed bad) : symbolAt byte rest = .malformed bad := by
  cases hsymbol : symbolAt byte rest with
  | malformed other =>
    obtain ⟨rfl, -⟩ := eq_of_symbolAt_malformed h
    obtain ⟨rfl, -⟩ := eq_of_symbolAt_malformed hsymbol
    rfl
  | char c =>
    -- the encoding of `c` would be read in front of `more` as well
    have hbytes := bytes_symbolAt byte rest
    rw [hsymbol] at hbytes
    have hencoded : byte :: (rest ++ more) =
        String.utf8EncodeChar c ++ (rest.drop (c.utf8Size - 1) ++ more) := by
      rw [← List.append_assoc, ← List.cons_append]
      exact congrArg (· ++ more) hbytes.symm
    have hread := symbols_encodeChar_append c (rest.drop (c.utf8Size - 1) ++ more)
    rw [← hencoded, symbols_cons, h] at hread
    cases hread

/-- The bytes of the symbols with which a source begins are read as these symbols. -/
theorem symbols_bytes_of_append {source : List UInt8} {before after : List Symbol}
    (h : symbols source = before ++ after) : symbols (before.flatMap Symbol.bytes) = before := by
  induction before generalizing source with
  | nil => exact symbols_nil
  | cons s before ih =>
    cases source with
    | nil =>
      rw [symbols_nil] at h
      cases h
    | cons byte rest =>
      rw [symbols_cons, List.cons_append, List.cons.injEq] at h
      obtain ⟨hs, hmore⟩ := h
      have hread := ih hmore
      cases s with
      | char c => rw [List.flatMap_cons, Symbol.bytes, symbols_encodeChar_append, hread]
      | malformed bad =>
        obtain ⟨rfl, -⟩ := eq_of_symbolAt_malformed hs
        have hrest : before.flatMap Symbol.bytes ++ after.flatMap Symbol.bytes = rest := by
          rw [← List.flatMap_append, ← hmore, bytes_symbols, hs]
          rfl
        have hbad := hs
        rw [← hrest] at hbad
        have halone := symbolAt_of_append hbad
        rw [List.flatMap_cons, Symbol.bytes, List.singleton_append, symbols_cons, halone]
        exact congrArg (_ :: ·) hread

/-- The characters of a list of symbols are written as their encoding. -/
theorem bytes_map_char (cs : List Char) :
    (cs.map Symbol.char).flatMap Symbol.bytes = encode cs := by
  simp only [List.flatMap_map, encode]
  rfl

/-! ## Bytes that stand alone -/

/-- A sequence is not continued by a byte of the first 128. -/
theorem Lead.tail_append_cons {first stop : UInt8} {lead : Lead} (hlead : lead? first = some lead)
    (hstop : stop.toNat < 0x80) (rest after : List UInt8) :
    lead.tail (rest ++ stop :: after) = lead.tail rest := by
  have hcases := lead?_cases hlead
  cases rest with
  | nil =>
    simp only [List.nil_append, Lead.tail]
    rw [if_neg (by omega)]
  | cons byte rest =>
    have hcontinuation : ¬ isContinuation stop := by
      simp only [isContinuation, Bool.and_eq_true, decide_eq_true_eq]
      omega
    have hstopped (n : Nat) : ((stop :: after).take n).takeWhile isContinuation = [] := by
      cases n with
      | zero => rfl
      | succ n => rw [List.take_succ_cons, List.takeWhile_cons_of_neg hcontinuation]
    simp only [List.cons_append, Lead.tail, List.take_append, List.takeWhile_append, hstopped,
      List.append_nil]
    -- whether the whole of `rest` continues the sequence or not, nothing is added after it
    have hsame (bytes : List UInt8) : (if (bytes.takeWhile isContinuation).length = bytes.length
        then bytes else bytes.takeWhile isContinuation) = bytes.takeWhile isContinuation := by
      split
      · exact ((List.takeWhile_prefix _).eq_of_length ‹_›).symm
      · rfl
    rw [hsame]

/-- No symbol reaches over a byte of ASCII. -/
theorem symbolAt_append_cons (byte stop : UInt8) (hstop : stop.toNat < 0x80)
    (rest after : List UInt8) : symbolAt byte (rest ++ stop :: after) = symbolAt byte rest := by
  by_cases hbyte : byte.toNat < 0x80
  · rw [symbolAt_of_lt hbyte, symbolAt_of_lt hbyte]
  · rw [symbolAt, symbolAt, if_neg hbyte, if_neg hbyte]
    cases hlead : lead? byte with
    | none => rfl
    | some lead => simp only [Lead.tail_append_cons hlead hstop]

/-- No symbol reaches across a byte of the first 128. -/
theorem symbols_append_cons (source after : List UInt8) {stop : UInt8}
    (hstop : stop.toNat < 0x80) :
    symbols (source ++ stop :: after) =
      symbols source ++ .char (Char.ofNat stop.toNat) :: symbols after := by
  induction source using symbols.induct with
  | case1 =>
    have hread := symbols_encodeChar_append (Char.ofNat stop.toNat) after
    rw [encoding_one hstop, UInt8.ofNat_toNat] at hread
    rw [symbols_nil]
    exact hread
  | case2 byte rest symbol ih =>
    have hsize : symbol.size - 1 ≤ rest.length := Nat.sub_le_of_le_add (size_symbolAt_le byte rest)
    rw [List.cons_append, symbols_cons, symbolAt_append_cons byte stop hstop,
      List.drop_append_of_le_length hsize, ih, symbols_cons, List.cons_append]

/-- The symbols on both sides of a newline do not depend on the other side. -/
theorem symbols_append_newline (source after : List UInt8) :
    symbols (source ++ 0x0A :: after) = symbols source ++ .char '\n' :: symbols after :=
  symbols_append_cons source after (by decide)

/-- Characters that are not ASCII have no bytes of ASCII. -/
theorem le_of_mem_encodeChar {c : Char} (hc : 0x80 ≤ c.toNat) {byte : UInt8}
    (h : byte ∈ String.utf8EncodeChar c) : 0x80 ≤ byte.toNat := by
  obtain ⟨first, tail, lead, hencoding, hlead, hfits, -⟩ := exists_fits_of_encoding hc
  have hcases := lead?_cases hlead
  rw [hencoding, List.mem_cons] at h
  rcases h with rfl | h
  · omega
  · cases tail with
    | nil => cases h
    | cons second more =>
      rcases List.mem_cons.mp h with rfl | hmore
      · have := hfits.second byte rfl
        omega
      · have hcontinued := hfits.continued byte hmore
        simp only [isContinuation, Bool.and_eq_true, decide_eq_true_eq] at hcontinued
        exact hcontinued.1

/-- A byte of ASCII is never malformed. -/
theorem le_of_malformed_mem {source : List UInt8} {bad : UInt8}
    (h : .malformed bad ∈ symbols source) : 0x80 ≤ bad.toNat := by
  induction source using symbols.induct with
  | case1 => simp [symbols_nil] at h
  | case2 byte rest symbol ih =>
    rw [symbols_cons, List.mem_cons] at h
    rcases h with hbad | h
    · obtain ⟨rfl, hle⟩ := eq_of_symbolAt_malformed hbad.symm
      exact hle
    · exact ih h

/-- A byte of the first 128 belongs to no symbol but its own. -/
theorem mem_bytes_iff {source : List UInt8} {symbol : Symbol} (h : symbol ∈ symbols source)
    {byte : UInt8} (hbyte : byte.toNat < 0x80) :
    byte ∈ symbol.bytes ↔ symbol = .char (Char.ofNat byte.toNat) := by
  cases symbol with
  | malformed bad =>
    have := le_of_malformed_mem h
    simp only [Symbol.bytes, List.mem_singleton, reduceCtorEq, iff_false]
    rintro rfl
    omega
  | char c =>
    rw [Symbol.bytes, Symbol.char.injEq]
    constructor
    · intro hmem
      by_cases hc : c.toNat < 0x80
      · have hone := encoding_one hc
        rw [Char.ofNat_toNat] at hone
        rw [hone, List.mem_singleton] at hmem
        rw [hmem, UInt8.toNat_ofNat', Nat.mod_eq_of_lt (by omega), Char.ofNat_toNat]
      · have := le_of_mem_encodeChar (Nat.le_of_not_lt hc) hmem
        omega
    · rintro rfl
      rw [encoding_one hbyte, UInt8.ofNat_toNat]
      exact List.mem_singleton_self byte

/-- Of all symbols only the newline has its byte. -/
theorem newline_mem_bytes_iff {source : List UInt8} {symbol : Symbol}
    (h : symbol ∈ symbols source) : 0x0A ∈ symbol.bytes ↔ symbol = .char '\n' :=
  mem_bytes_iff h (by decide)

end Utf8

end AsmLexer

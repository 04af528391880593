import AsmLexer.Token
import AsmLexer.Text.Quoted
import Mathlib.Tactic.IntervalCases

/-!
# Messages are printable

Whatever is shown of a source to people is printable: numbers are digits, characters and texts are
quoted, and bytes are written in hexadecimal. So a property that all printable characters have is
one of every character of a message, as long as the value that it may show has it
(`Fault.forall_mem_message`). Having no newline is such a property
(`Fault.newline_notMem_message`).
-/

set_option autoImplicit false

namespace AsmLexer

/-! ## Printable characters -/

/-- The printing half of ASCII is printable. -/
theorem isPrintable_of_ascii {c : Char} (hlow : 0x20 ≤ c.toNat) (hhigh : c.toNat < 0x7F) :
    isPrintable c = true := by
  -- the first range that is not printable ends in front of the blank, the next one begins at 0x7F
  have hcovers : unprintableRanges.covers c.toNat = false := by
    rw [unprintableRanges, CharRanges.covers, if_neg (Nat.not_lt_zero _), if_neg (by omega),
      CharRanges.covers, if_pos hhigh]
  rw [isPrintable, CharRanges.contains, hcovers]
  rfl

/-- Printable text is on one line. -/
theorem newline_notMem_of_isPrintable {text : List Char} (h : ∀ c ∈ text, isPrintable c = true) :
    '\n' ∉ text := by
  intro hmem
  exact absurd (h _ hmem) (by decide)

/-! ## Numbers -/

/-- A natural number is written in digits. -/
theorem mem_toString_nat {n : Nat} {c : Char} (h : c ∈ (toString n).toList) : c.isDigit := by
  rw [Nat.toString_eq_repr, Nat.repr, String.toList_ofList] at h
  exact Nat.isDigit_of_mem_toDigits (by decide) (by decide) h

/-- An integer is written in digits, perhaps behind a minus sign. -/
theorem mem_toString_int {i : Int} {c : Char} (h : c ∈ (toString i).toList) :
    c = '-' ∨ c.isDigit := by
  cases i with
  | ofNat n => exact .inr (mem_toString_nat h)
  | negSucc n =>
    have hminus : toString (Int.negSucc n) = "-" ++ toString (n + 1) := rfl
    rw [hminus, String.toList_append, List.mem_append] at h
    rcases h with h | h
    · exact .inl (by simpa using h)
    · exact .inr (mem_toString_nat h)

/-- What is neither a digit nor a minus sign is in no number. -/
theorem notMem_toString {i : Int} {c : Char} (hminus : c ≠ '-') (hdigit : c.isDigit = false) :
    c ∉ (toString i).toList := by
  intro h
  rcases mem_toString_int h with rfl | h
  · exact hminus rfl
  · rw [hdigit] at h
    cases h

/-- Digits are printable. -/
theorem isPrintable_of_isDigit {c : Char} (h : c.isDigit) : isPrintable c = true := by
  simp only [Char.isDigit, Bool.and_eq_true, decide_eq_true_eq, UInt32.le_iff_toNat_le] at h
  have hlow : '0'.val.toNat = 0x30 := rfl
  have hhigh : '9'.val.toNat = 0x39 := rfl
  have hcode : c.toNat = c.val.toNat := rfl
  exact isPrintable_of_ascii (by omega) (by omega)

/-- Numbers are printable. -/
theorem isPrintable_of_mem_toString {i : Int} {c : Char} (h : c ∈ (toString i).toList) :
    isPrintable c = true := by
  rcases mem_toString_int h with rfl | h
  · decide
  · exact isPrintable_of_isDigit h

/-! ## Quoted text -/

/-- Hexadecimal digits are printable. -/
theorem HexCase.isPrintable_digit (case : HexCase) {value : Nat} (h : value < 16) :
    isPrintable (case.digit value) = true := by
  cases case <;> interval_cases value <;> decide

/-- Hexadecimal numbers are printable. -/
theorem HexCase.isPrintable_of_mem_digits {case : HexCase} {width n : Nat} {c : Char}
    (h : c ∈ case.digits width n) : isPrintable c = true := by
  induction width generalizing n with
  | zero => cases h
  | succ width ih =>
    rw [HexCase.digits, List.mem_append, List.mem_singleton] at h
    rcases h with h | rfl
    · exact ih h
    · exact case.isPrintable_digit (Nat.mod_lt n (by decide))

/-- What stands for a character between quotes is printable. -/
theorem isPrintable_of_mem_escapeChar {delimiter c d : Char}
    (hdelimiter : isPrintable delimiter = true) (h : d ∈ escapeChar delimiter c) :
    isPrintable d = true := by
  have hescape {letter : Char} {line : List Char} (hletter : isPrintable letter = true)
      (hline : ∀ d ∈ line, isPrintable d = true) (h : d ∈ '\\' :: letter :: line) :
      isPrintable d = true := by
    rw [List.mem_cons, List.mem_cons] at h
    rcases h with rfl | rfl | h
    · decide
    · exact hletter
    · exact hline d h
  have hdigits (width : Nat) : ∀ d ∈ HexCase.lower.digits width c.toNat, isPrintable d = true :=
    fun d hd => HexCase.isPrintable_of_mem_digits hd
  have hnil : ∀ d ∈ ([] : List Char), isPrintable d = true := List.forall_mem_nil _
  unfold escapeChar at h
  split at h
  · rename_i hc
    refine hescape ?_ hnil h
    rcases hc with rfl | rfl
    · exact hdelimiter
    · decide
  split at h
  · exact hescape (by decide) hnil h
  split at h
  · exact hescape (by decide) hnil h
  split at h
  · exact hescape (by decide) hnil h
  split at h
  · rwa [List.mem_singleton.mp h]
  split at h
  · exact hescape (by decide) (hdigits 2) h
  split at h
  · exact hescape (by decide) (hdigits 4) h
  · exact hescape (by decide) (hdigits 8) h

/-- Quoted text is printable, whatever text it quotes. -/
theorem isPrintable_of_mem_quoted {s : String} {c : Char} (h : c ∈ (quoted s).toList) :
    isPrintable c = true := by
  have hdelimiter : isPrintable (quoteDelimiter s.toList) = true := by
    unfold quoteDelimiter
    split <;> decide
  rw [quoted, String.toList_ofList, quote, List.mem_append, List.mem_cons, List.mem_singleton] at h
  rcases h with (rfl | h) | rfl
  · exact hdelimiter
  · obtain ⟨d, -, hd⟩ := List.mem_flatMap.mp h
    exact isPrintable_of_mem_escapeChar hdelimiter hd
  · exact hdelimiter

/-! ## Messages -/

/-- What is true of the characters of two texts is true of those of both in a row. -/
theorem forall_mem_toList_append {P : Char → Prop} {s t : String} (hs : ∀ c ∈ s.toList, P c)
    (ht : ∀ c ∈ t.toList, P c) : ∀ c ∈ (s ++ t).toList, P c := by
  rw [String.toList_append]
  exact List.forall_mem_append.mpr ⟨hs, ht⟩

/-- The message about a malformed byte is printable. -/
theorem isPrintable_of_mem_invalidByteMessage {byte : UInt8} {c : Char}
    (h : c ∈ (invalidByteMessage byte).toList) : isPrintable c = true := by
  have hmark : "invalid UTF-8 byte \\x".toList.all isPrintable = true := by decide
  refine forall_mem_toList_append (List.all_eq_true.mp hmark) ?_ c h
  rw [String.toList_ofList]
  exact fun c hc => HexCase.isPrintable_of_mem_digits hc

/-- What holds of all printable characters holds of those of a message, if it holds of those of the
value that the message may show. -/
theorem Fault.forall_mem_message {P : Char → Prop} {fault : Fault}
    (hprintable : ∀ c, isPrintable c = true → P c)
    (hliteral : ∀ literal, fault = .malformedImmediate literal → ∀ c ∈ literal.toList, P c) :
    ∀ c ∈ fault.message.toList, P c := by
  have hshown {s : String} (hs : ∀ c ∈ s.toList, isPrintable c = true) : ∀ c ∈ s.toList, P c :=
    fun c hc => hprintable c (hs c hc)
  have hfixed {s : String} (hs : s.toList.all isPrintable = true) : ∀ c ∈ s.toList, P c :=
    hshown (List.all_eq_true.mp hs)
  have hsymbol (c : Char) :
      ∀ d ∈ ("illegal symbol " ++ quoted (String.singleton c)).toList, P d :=
    forall_mem_toList_append (hfixed (by decide))
      (hshown fun d hd => isPrintable_of_mem_quoted hd)
  cases fault with
  | illegalSymbol c => exact hsymbol c
  | illegalAfterZero c => exact forall_mem_toList_append (hsymbol c) (hfixed (by decide))
  | illegalDigit c base =>
    have hbase : ∀ d ∈ (toString base).toList, P d :=
      hshown fun d hd => isPrintable_of_isDigit (mem_toString_nat hd)
    refine forall_mem_toList_append
      (forall_mem_toList_append (forall_mem_toList_append (hsymbol c) ?_) hbase) ?_
    · exact hfixed (by decide)
    · exact hfixed (by decide)
  | malformedImmediate literal =>
    refine forall_mem_toList_append (forall_mem_toList_append ?_ (hliteral literal rfl)) ?_
    · exact hfixed (by decide)
    · exact hfixed (by decide)
  | invalidByte byte => exact hshown fun d hd => isPrintable_of_mem_invalidByteMessage hd

/-- A message is on one line if the value that it may show is. -/
theorem Fault.newline_notMem_message {fault : Fault}
    (h : ∀ literal, fault = .malformedImmediate literal → '\n' ∉ literal.toList) :
    '\n' ∉ fault.message.toList := by
  have hprintable : ∀ c, isPrintable c = true → c ≠ '\n' := by
    rintro _ hc rfl
    exact absurd hc (by decide)
  have hmessage := Fault.forall_mem_message hprintable fun literal hliteral c hc hnewline =>
    h literal hliteral (hnewline ▸ hc)
  exact fun hmem => hmessage '\n' hmem rfl

end AsmLexer

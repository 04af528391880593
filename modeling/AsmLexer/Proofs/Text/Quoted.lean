import AsmLexer.Text.Quoted
import AsmLexer.Toml.Scalar
import Mathlib.Tactic.IntervalCases

/-!
# Quoted text is lossless

One escape is read back by the letter behind its backslash, which says how many hexadecimal digits
follow, if any (`readEscape_escapeChar`). So no escape is the beginning of another one, and a text
can be read off its escapes one by one (`flatMap_escapeChar_injective`). The delimiter stands in
front of them, and two texts with the same quoted form are the same (`quoted_injective`).
-/

set_option autoImplicit false

namespace AsmLexer

/-! ## Hexadecimal digits -/

/-- A hexadecimal digit is read as what it was written for. -/
theorem hexValue?_digit (case : HexCase) {value : Nat} (h : value < 16) :
    hexValue? (case.digit value) = some value := by
  cases case <;> interval_cases value <;> decide

/-- A number is written in as many digits as asked for. -/
theorem HexCase.length_digits (case : HexCase) (width n : Nat) :
    (case.digits width n).length = width := by
  induction width generalizing n with
  | zero => rfl
  | succ width ih => rw [HexCase.digits, List.length_append, ih, List.length_singleton]

/-- A number that has no more digits is read back from them. -/
theorem digitsValue_digits (case : HexCase) {width n : Nat} (h : n < Nat.pow 16 width) :
    Toml.digitsValue 16 (case.digits width n) = n := by
  induction width generalizing n with
  | zero =>
    have hzero : n = 0 := Nat.lt_one_iff.mp h
    rw [hzero]
    rfl
  | succ width ih =>
    have hdigit := hexValue?_digit case (Nat.mod_lt n (show 16 > 0 by decide))
    have hfront := ih (Nat.div_lt_of_lt_mul (by rwa [Nat.mul_comm]))
    rw [Toml.digitsValue] at hfront ⊢
    rw [HexCase.digits, List.foldl_append, hfront, List.foldl_cons, List.foldl_nil, hdigit,
      Option.getD_some, Nat.mul_comm, Nat.div_add_mod]

/-! ## One escape -/

/-- The character that is written in this many hexadecimal digits, and what follows them. -/
def readCodePoint (width : Nat) (text : List Char) : Char × List Char :=
  (Char.ofNat (Toml.digitsValue 16 (text.take width)), text.drop width)

/-- The first character of an escaped text, and what follows its escape. -/
def readEscape : List Char → Option (Char × List Char)
  | '\\' :: 't' :: rest => some ('\t', rest)
  | '\\' :: 'n' :: rest => some ('\n', rest)
  | '\\' :: 'r' :: rest => some ('\r', rest)
  | '\\' :: 'x' :: rest => some (readCodePoint 2 rest)
  | '\\' :: 'u' :: rest => some (readCodePoint 4 rest)
  | '\\' :: 'U' :: rest => some (readCodePoint 8 rest)
  | '\\' :: c :: rest => some (c, rest)
  | c :: rest => some (c, rest)
  | [] => none

/-- A character is read from the digits that it was written in. -/
theorem readCodePoint_digits (case : HexCase) {width : Nat} {c : Char}
    (h : c.toNat < Nat.pow 16 width) (rest : List Char) :
    readCodePoint width (case.digits width c.toNat ++ rest) = (c, rest) := by
  have hlength := case.length_digits width c.toNat
  rw [readCodePoint, List.take_left' hlength, List.drop_left' hlength, digitsValue_digits case h,
    Char.ofNat_toNat]

/-- What is no backslash stands for itself. -/
theorem readEscape_cons {c : Char} (h : c ≠ '\\') (rest : List Char) :
    readEscape (c :: rest) = some (c, rest) := by
  rw [readEscape]
  all_goals
    intros
    exact absurd ‹_› h

section

variable {delimiter : Char}

/-- An escape is read back, whatever follows it. -/
theorem readEscape_escapeChar (hdelimiter : delimiter = singleQuote ∨ delimiter = doubleQuote)
    (c : Char) (rest : List Char) :
    readEscape (escapeChar delimiter c ++ rest) = some (c, rest) := by
  unfold escapeChar
  split
  · rename_i hc
    rcases hc with rfl | rfl
    · rcases hdelimiter with rfl | rfl
      · rfl
      · rfl
    · rfl
  rename_i hc
  rw [not_or] at hc
  split
  · rename_i htab
    rw [htab]
    rfl
  split
  · rename_i hnewline
    rw [hnewline]
    rfl
  split
  · rename_i hreturn
    rw [hreturn]
    rfl
  split
  · exact readEscape_cons hc.2 rest
  split
  · rename_i hshort
    exact congrArg some (readCodePoint_digits .lower hshort rest)
  split
  · rename_i hshort
    exact congrArg some (readCodePoint_digits .lower hshort rest)
  · have hshort : c.toNat < Nat.pow 16 8 := by
      have hvalid := c.valid
      simp only [UInt32.isValidChar, Nat.isValidChar] at hvalid
      show c.val.toNat < 0x100000000
      omega
    exact congrArg some (readCodePoint_digits .lower hshort rest)

/-- A text is read off its escapes. -/
theorem flatMap_escapeChar_injective
    (hdelimiter : delimiter = singleQuote ∨ delimiter = doubleQuote) {s t : List Char}
    (h : s.flatMap (escapeChar delimiter) = t.flatMap (escapeChar delimiter)) : s = t := by
  have hread (c : Char) (cs : List Char) :
      readEscape ((c :: cs).flatMap (escapeChar delimiter)) =
        some (c, cs.flatMap (escapeChar delimiter)) :=
    readEscape_escapeChar hdelimiter c _
  induction s generalizing t with
  | nil =>
    cases t with
    | nil => rfl
    | cons d ds =>
      have hsome := hread d ds
      rw [← h] at hsome
      cases hsome
  | cons c cs ih =>
    have hsome := hread c cs
    cases t with
    | nil =>
      rw [h] at hsome
      cases hsome
    | cons d ds =>
      rw [h, hread d ds, Option.some_inj, Prod.mk.injEq] at hsome
      rw [hsome.1, ih hsome.2.symm]

end

/-! ## Quoted text -/

/-- Texts are put between single or double quotes. -/
theorem quoteDelimiter_cases (s : List Char) :
    quoteDelimiter s = singleQuote ∨ quoteDelimiter s = doubleQuote := by
  unfold quoteDelimiter
  split
  · exact .inr rfl
  · exact .inl rfl

/-- No two texts are quoted alike. -/
theorem quote_injective : Function.Injective quote := by
  intro s t h
  have hdelimiter : quoteDelimiter s = quoteDelimiter t := (List.cons.inj h).1
  have hescapes := (List.cons.inj h).2
  rw [hdelimiter] at hescapes
  exact flatMap_escapeChar_injective (quoteDelimiter_cases t) (List.append_cancel_right hescapes)

/-- No two strings are quoted alike. -/
theorem quoted_injective : Function.Injective quoted := by
  intro s t h
  have hlists : quote s.toList = quote t.toList := String.ofList_injective h
  exact String.toList_injective (quote_injective hlists)

end AsmLexer

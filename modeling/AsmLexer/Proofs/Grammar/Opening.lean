import AsmLexer.Proofs.Grammar.Lexeme
import AsmLexer.Scanner

/-!
# What the first character of a lexeme decides

The scanner looks at the first character of a token and at the digits of a number through functions
that compute. Here they are brought together with the classes of characters that the grammar names:
`punctuation?` with `Punctuation`, `opening?` with `Opens`, and `isDigitIn` with the digits of each
base in `Numeral`.
-/

set_option autoImplicit false

namespace AsmLexer

/-! ## Punctuation -/

/-- What the machine takes for a punctuation mark is one. -/
theorem punctuation_of_eq_some {kind : Kind} {c : Char} (h : punctuation? c = some kind) :
    Punctuation kind c := by
  unfold punctuation? at h
  split at h
  · cases h
    exact .newline
  · cases h
    exact .leftParen
  · cases h
    exact .rightParen
  · cases h
    exact .colon
  · cases h
    exact .comma
  · cases h

/-! ## Openings -/

/-- The states in which the lexemes go on that begin with this character. -/
inductive Opens : State → Char → Prop where
  | comment : Opens .comment ';'
  | name {kind : Kind} {c : Char} : Initial kind c → Opens (.word kind) c
  | space {c : Char} : c ≠ '\n' → isBlank c → Opens .space c
  | zero : Opens .afterZero '0'
  | digit {c : Char} : '1' ≤ c ∧ c ≤ '9' → Opens (.digits 10) c

/-- A character that the machine opens a state with opens it in the grammar. -/
theorem opens_of_eq_some {state : State} {c : Char} (hmark : punctuation? c = none)
    (h : opening? c = some state) : Opens state c := by
  unfold opening? at h
  split at h
  · rename_i hc
    cases h
    rw [hc]
    exact .comment
  split at h
  · rename_i hc
    cases h
    rw [hc]
    exact .name .dot
  split at h
  · rename_i hc
    cases h
    rw [hc]
    exact .name .percent
  split at h
  · cases h
    refine .space ?_ ‹isBlank c›
    rintro rfl
    cases hmark
  split at h
  · rename_i hc
    cases h
    rw [hc]
    exact .zero
  split at h
  · cases h
    exact .digit ‹_›
  split at h
  · rename_i hletter
    cases h
    rcases hletter with hletter | rfl
    · exact .name (.letter hletter)
    · exact .name .underscore
  · cases h

/-- What opens a state is no punctuation mark. -/
theorem Opens.punctuation_eq_none {state : State} {c : Char} (h : Opens state c) :
    punctuation? c = none := by
  rw [Option.eq_none_iff_forall_ne_some]
  intro kind hkind
  have hmark := punctuation_of_eq_some hkind
  cases h with
  | comment => cases hmark
  | zero => cases hmark
  | space hne hblank => exact hmark.not_isSpace ⟨hne, hblank⟩
  | digit hc => cases hmark <;> revert hc <;> decide
  | name hinitial =>
    cases hinitial with
    | letter hletter => exact hmark.not_isNameChar (isNameChar_of_isLetter hletter)
    | underscore => cases hmark
    | dot => cases hmark
    | percent => cases hmark

/-- No character of a name is met by the first tests of `opening?`. -/
theorem opening_of_isNameChar {c : Char} (h : isNameChar c) :
    opening? c = if c = '0' then some .afterZero
      else if '1' ≤ c ∧ c ≤ '9' then some (.digits 10)
      else if isLetter c ∨ c = '_' then some (.word .identifier)
      else none := by
  have hsemicolon : c ≠ ';' := by rintro rfl; revert h; decide
  have hdot : c ≠ '.' := by rintro rfl; revert h; decide
  have hpercent : c ≠ '%' := by rintro rfl; revert h; decide
  have hblank : ¬ isBlank c := fun hblank => not_isNameChar_of_isBlank hblank h
  rw [opening?, if_neg hsemicolon, if_neg hdot, if_neg hpercent, if_neg hblank]

/-- A character that opens a state in the grammar opens it in the machine. -/
theorem Opens.eq_some {state : State} {c : Char} (h : Opens state c) : opening? c = some state := by
  cases h with
  | comment => rfl
  | zero => decide
  | space hne hblank =>
    have hsemicolon : c ≠ ';' := by rintro rfl; revert hblank; decide
    have hdot : c ≠ '.' := by rintro rfl; revert hblank; decide
    have hpercent : c ≠ '%' := by rintro rfl; revert hblank; decide
    rw [opening?, if_neg hsemicolon, if_neg hdot, if_neg hpercent, if_pos hblank]
  | digit hc =>
    have hname : isNameChar c := isNameChar_of_digit (Char.le_trans (by decide) hc.1) hc.2
    have hzero : c ≠ '0' := by rintro rfl; revert hc; decide
    rw [opening_of_isNameChar hname, if_neg hzero, if_pos hc]
  | name hinitial =>
    cases hinitial with
    | dot => rfl
    | percent => rfl
    | underscore => decide +kernel
    | letter hletter =>
      have hdigit (hc : c ≤ '9') : False := not_isLetter_of_digit hc hletter
      have hzero : c ≠ '0' := by rintro rfl; exact hdigit (by decide)
      rw [opening_of_isNameChar (isNameChar_of_isLetter hletter), if_neg hzero,
        if_neg fun hc => hdigit hc.2, if_pos (Or.inl hletter)]

/-! ## Digits -/

/-- The decimal digits. -/
theorem isDigitIn_ten_iff {c : Char} : isDigitIn 10 c ↔ '0' ≤ c ∧ c ≤ '9' := by
  have hnine : c ≤ '9' ↔ c.toNat ≤ 57 := Iff.rfl
  have hzero : ('0' : Char).toNat = 48 := rfl
  simp only [isDigitIn, Int.le_refl, if_true, Bool.and_eq_true, decide_eq_true_eq, hnine]
  refine and_congr_right fun _ => ?_
  omega

/-- The octal digits. -/
theorem isDigitIn_eight_iff {c : Char} : isDigitIn 8 c ↔ '0' ≤ c ∧ c ≤ '7' := by
  have hseven : c ≤ '7' ↔ c.toNat ≤ 55 := Iff.rfl
  have hzero : ('0' : Char).toNat = 48 := rfl
  have hbase : (8 : Int) ≤ 10 := by decide
  simp only [isDigitIn, hbase, if_true, Bool.and_eq_true, decide_eq_true_eq, hseven]
  refine and_congr_right fun _ => ?_
  omega

/-- The binary digits. -/
theorem isDigitIn_two_iff {c : Char} : isDigitIn 2 c ↔ c = '0' ∨ c = '1' := by
  have hlow : '0' ≤ c ↔ 48 ≤ c.toNat := Iff.rfl
  have hzero : c = '0' ↔ c.toNat = 48 := Char.toNat_inj.symm
  have hone : c = '1' ↔ c.toNat = 49 := Char.toNat_inj.symm
  have hbase : (2 : Int) ≤ 10 := by decide
  have hcode : ('0' : Char).toNat = 48 := rfl
  simp only [isDigitIn, hbase, if_true, Bool.and_eq_true, decide_eq_true_eq, hlow, hzero, hone]
  omega

/-- The hexadecimal digits, in both cases. -/
theorem isDigitIn_sixteen_iff {c : Char} :
    isDigitIn 16 c ↔ '0' ≤ c ∧ c ≤ '9' ∨ 'a' ≤ c ∧ c ≤ 'f' ∨ 'A' ≤ c ∧ c ≤ 'F' := by
  have hbase : ¬ (16 : Int) ≤ 10 := by decide
  simp only [isDigitIn, hbase, if_false, Bool.or_eq_true, Bool.and_eq_true, decide_eq_true_eq,
    or_assoc]

end AsmLexer

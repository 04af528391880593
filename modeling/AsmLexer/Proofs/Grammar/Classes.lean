import AsmLexer.CharClass

/-!
# Classes of characters that exclude each other

A character that separates is in no name (`not_isNameChar_of_isSeparator`), while every digit of
every base is in names. Two classes that are written as ranges exclude each other when their ranges
lie apart, which is checked range by range.
-/

set_option autoImplicit false

namespace AsmLexer

namespace CharRanges

/-- Whether no range of one list meets a range of the other. -/
def apart (left right : CharRanges) : Bool :=
  left.all fun r => right.all fun q => r.2 < q.1 || q.2 < r.1

/-- A number that ranges cover is in one of them. -/
theorem exists_of_covers {ranges : CharRanges} {n : Nat} (h : ranges.covers n = true) :
    ∃ r ∈ ranges, r.1 ≤ n ∧ n ≤ r.2 := by
  induction ranges with
  | nil => cases h
  | cons r rest ih =>
    obtain ⟨low, high⟩ := r
    rw [covers] at h
    split at h
    · cases h
    · rename_i hlow
      split at h
      · rename_i hhigh
        exact ⟨(low, high), List.mem_cons_self, Nat.le_of_not_lt hlow, hhigh⟩
      · obtain ⟨q, hq, hbounds⟩ := ih h
        exact ⟨q, List.mem_cons_of_mem _ hq, hbounds⟩

/-- Ranges that are apart cover no number together. -/
theorem not_covers_of_apart {left right : CharRanges} (h : left.apart right = true) {n : Nat}
    (hleft : left.covers n = true) : ¬ right.covers n = true := by
  intro hright
  obtain ⟨r, hr, hrn⟩ := exists_of_covers hleft
  obtain ⟨q, hq, hqn⟩ := exists_of_covers hright
  have hapart := List.all_eq_true.mp (List.all_eq_true.mp h r hr) q hq
  simp only [Bool.or_eq_true, decide_eq_true_eq] at hapart
  omega

/-- A number in the first range is covered. -/
theorem covers_cons_of_mem {low high n : Nat} {rest : CharRanges} (hlow : low ≤ n)
    (hhigh : n ≤ high) : covers ((low, high) :: rest) n = true := by
  rw [covers, if_neg (Nat.not_lt_of_le hlow), if_pos hhigh]

end CharRanges

/-! ## Blank characters -/

/-- A blank is no letter. -/
theorem not_isLetter_of_isBlank {c : Char} (h : isBlank c) : ¬ isLetter c := by
  have hapart : blankRanges.apart letterRanges = true := by decide +kernel
  exact CharRanges.not_covers_of_apart hapart h

/-- A blank is no decimal digit. -/
theorem not_isDecimal_of_isBlank {c : Char} (h : isBlank c) : ¬ isDecimal c := by
  have hapart : blankRanges.apart decimalRanges = true := by decide +kernel
  exact CharRanges.not_covers_of_apart hapart h

/-- A blank does not continue a name. -/
theorem not_isNameChar_of_isBlank {c : Char} (h : isBlank c) : ¬ isNameChar c := by
  intro hname
  simp only [isNameChar, Bool.or_eq_true, decide_eq_true_eq] at hname
  rcases hname with (hletter | hdecimal) | rfl
  · exact not_isLetter_of_isBlank h hletter
  · exact not_isDecimal_of_isBlank h hdecimal
  · exact absurd h (by decide)

/-- What ends a number does not continue a name. -/
theorem not_isNameChar_of_isSeparator {c : Char} (h : isSeparator c) : ¬ isNameChar c := by
  simp only [isSeparator, Bool.or_eq_true, decide_eq_true_eq] at h
  rcases h with ((((rfl | rfl) | rfl) | rfl) | rfl) | hblank
  · decide
  · decide
  · decide
  · decide
  · decide
  · exact not_isNameChar_of_isBlank hblank

/-! ## Letters and digits -/

/-- The capitals of ASCII are letters. -/
theorem isLetter_of_upper {c : Char} (hlow : 'A' ≤ c) (hhigh : c ≤ 'Z') : isLetter c :=
  CharRanges.covers_cons_of_mem hlow hhigh

/-- The small letters of ASCII are letters. -/
theorem isLetter_of_lower {c : Char} (hlow : 'a' ≤ c) (hhigh : c ≤ 'z') : isLetter c := by
  have hlow' : ('a' : Char).toNat ≤ c.toNat := hlow
  have hnext : isLetter c = CharRanges.covers (letterRanges.drop 1) c.toNat := by
    refine (if_neg ?_).trans (if_neg ?_)
    · exact Nat.not_lt_of_le (Nat.le_trans (by decide) hlow')
    · exact Nat.not_le_of_lt (Nat.lt_of_lt_of_le (by decide) hlow')
  rw [hnext]
  exact CharRanges.covers_cons_of_mem hlow hhigh

/-- No character up to the nine is a letter. -/
theorem not_isLetter_of_digit {c : Char} (h : c ≤ '9') : ¬ isLetter c := by
  have hlow : c.toNat < 0x41 := Nat.lt_of_le_of_lt h (by decide)
  have hnone : isLetter c = false := if_pos hlow
  rw [hnone]
  decide

/-- A letter continues a name. -/
theorem isNameChar_of_isLetter {c : Char} (h : isLetter c) : isNameChar c := by
  simp [isNameChar, h]

/-- A digit of ASCII continues a name. -/
theorem isNameChar_of_digit {c : Char} (hlow : '0' ≤ c) (hhigh : c ≤ '9') : isNameChar c := by
  have hdecimal : isDecimal c := CharRanges.covers_cons_of_mem hlow hhigh
  simp [isNameChar, hdecimal]

/-- Every digit of every base may also stand in a name. -/
theorem isNameChar_of_isDigitIn {base : Int} {c : Char} (h : isDigitIn base c) : isNameChar c := by
  unfold isDigitIn at h
  split at h
  · rename_i hbase
    simp only [Bool.and_eq_true, decide_eq_true_eq] at h
    have hzero : ('0' : Char).toNat = 48 := rfl
    have hhigh : c.toNat ≤ ('9' : Char).toNat := by
      have hnine : ('9' : Char).toNat = 57 := rfl
      omega
    exact isNameChar_of_digit h.1 hhigh
  · simp only [Bool.or_eq_true, Bool.and_eq_true, decide_eq_true_eq] at h
    rcases h with (⟨hlow, hhigh⟩ | ⟨hlow, hhigh⟩) | ⟨hlow, hhigh⟩
    · exact isNameChar_of_digit hlow hhigh
    · exact isNameChar_of_isLetter (isLetter_of_lower hlow (Char.le_trans hhigh (by decide)))
    · exact isNameChar_of_isLetter (isLetter_of_upper hlow (Char.le_trans hhigh (by decide)))

end AsmLexer

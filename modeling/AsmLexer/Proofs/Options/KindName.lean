import AsmLexer.Proofs.Grammar.Classes
import AsmLexer.Token.Kind
import Mathlib.Data.List.Basic
import Mathlib.Data.List.TakeWhile
import Mathlib.Tactic.IntervalCases

/-!
# Spellings of the kinds

A kind is named by its name in any case, with any blanks around it (`Kind.SpelledBy`). Such a text
is looked up by cutting off its blanks and taking the rest to upper case, and finds that kind and no
other (`Kind.ofName?_eq_some_iff`). The letters of the names are the only characters besides blanks
that a spelling can hold, so a text with a digit or a bracket names no kind
(`Kind.ofName?_eq_none_of_mem`).
-/

set_option autoImplicit false

namespace AsmLexer

/-! ## Blanks -/

/-- A blank is no letter, so it is its own upper case. -/
theorem upperForm_of_isBlank {c : Char} (h : isBlank c = true) : upperForm c = [c] := by
  unfold upperForm
  split
  · rename_i hletter
    exact absurd (isLetter_of_lower hletter.1 hletter.2) (not_isLetter_of_isBlank h)
  · rw [isBlank, CharRanges.contains] at h
    split
    all_goals first
      | rfl
      | (rename_i hcode; rw [hcode] at h; exact absurd h (by decide))

/-- Blanks in front are dropped, up to the first character that is none. -/
theorem dropWhile_isBlank_append {before rest : List Char}
    (hbefore : ∀ c ∈ before, isBlank c = true) (hrest : ∀ c ∈ rest.head?, isBlank c = false) :
    (before ++ rest).dropWhile isBlank = rest := by
  rw [List.dropWhile_append_of_pos hbefore]
  cases rest with
  | nil => rfl
  | cons c rest => rw [List.dropWhile_cons_of_neg (by simp [hrest c rfl])]

/-- Blanks are cut off on both sides of a text that holds none. -/
theorem trimBlank_append {before core after : List Char} (hne : core ≠ [])
    (hbefore : ∀ c ∈ before, isBlank c = true) (hcore : ∀ c ∈ core, isBlank c = false)
    (hafter : ∀ c ∈ after, isBlank c = true) : trimBlank (before ++ (core ++ after)) = core := by
  have hfront : (before ++ (core ++ after)).dropWhile isBlank = core ++ after := by
    apply dropWhile_isBlank_append hbefore
    intro c hc
    rw [List.head?_append_of_ne_nil _ hne] at hc
    exact hcore c (List.mem_of_mem_head? hc)
  have hback : (after.reverse ++ core.reverse).dropWhile isBlank = core.reverse := by
    apply dropWhile_isBlank_append
    · intro c hc
      exact hafter c (List.mem_reverse.mp hc)
    · intro c hc
      exact hcore c (List.mem_reverse.mp (List.mem_of_mem_head? hc))
  rw [trimBlank, hfront, List.reverse_append, hback, List.reverse_reverse]

/-- Trimming takes only blanks, on both sides. -/
theorem exists_trimBlank (s : List Char) :
    ∃ before after, s = before ++ (trimBlank s ++ after) ∧ (∀ c ∈ before, isBlank c = true) ∧
      ∀ c ∈ after, isBlank c = true := by
  refine ⟨s.takeWhile isBlank, ((s.dropWhile isBlank).reverse.takeWhile isBlank).reverse,
    ?_, ?_, ?_⟩
  · rw [trimBlank, ← List.reverse_append, List.takeWhile_append_dropWhile, List.reverse_reverse,
      List.takeWhile_append_dropWhile]
  · intro c hc
    exact List.mem_takeWhile_imp hc
  · intro c hc
    exact List.mem_takeWhile_imp (List.mem_reverse.mp hc)

/-! ## Spellings -/

namespace Kind

/-- A text that names a kind: its name, in any case and between blanks. -/
def SpelledBy (kind : Kind) (s : String) : Prop :=
  ∃ before core after, s.toList = before ++ (core ++ after) ∧
    (∀ c ∈ before, isBlank c = true) ∧ upperCase core = kind.name.toList ∧
    ∀ c ∈ after, isBlank c = true

/-- Whether a character may stand in a text that names a kind. -/
def canSpell (c : Char) : Bool :=
  isBlank c || (upperForm c).all fun d => all.any fun kind => kind.name.toList.contains d

/-- Each kind is the first one with its name. -/
theorem find?_name (kind : Kind) :
    all.find? (fun k => k.name.toList == kind.name.toList) = some kind := by
  cases kind <;> decide

/-- The list of all kinds has every kind. -/
theorem mem_all (kind : Kind) : kind ∈ all := by
  cases kind <;> decide

/-- Names of kinds have no blanks. -/
theorem not_isBlank_of_mem_name {kind : Kind} {c : Char} (h : c ∈ kind.name.toList) :
    isBlank c = false := by
  have hname : kind.name.toList.all fun c => !isBlank c := by
    cases kind <;> decide
  simpa using List.all_eq_true.mp hname c h

variable {kind : Kind} {s : String} {core : List Char}

/-- A text whose upper case is the name of a kind is not empty. -/
theorem ne_nil_of_upperCase (h : upperCase core = kind.name.toList) : core ≠ [] := by
  rintro rfl
  cases kind <;> exact absurd h (by decide)

/-- A text whose upper case is the name of a kind has no blanks. -/
theorem not_isBlank_of_upperCase (h : upperCase core = kind.name.toList) {c : Char}
    (hc : c ∈ core) : isBlank c = false := by
  by_contra hblank
  rw [Bool.not_eq_false] at hblank
  -- a blank would still be there in upper case, and no name has one
  have hmem : c ∈ upperCase core := by
    refine List.mem_flatMap.mpr ⟨c, hc, ?_⟩
    rw [upperForm_of_isBlank hblank]
    exact List.mem_singleton_self c
  rw [h] at hmem
  rw [not_isBlank_of_mem_name hmem] at hblank
  cases hblank

/-- A kind is found by its spellings. -/
theorem ofName?_eq_some_iff : ofName? s = some kind ↔ kind.SpelledBy s := by
  constructor
  · intro h
    obtain ⟨before, after, hs, hbefore, hafter⟩ := exists_trimBlank s.toList
    have hname := List.find?_some h
    exact ⟨before, _, after, hs, hbefore, (eq_of_beq hname).symm, hafter⟩
  · rintro ⟨before, core, after, hs, hbefore, hname, hafter⟩
    have htrim := trimBlank_append (ne_nil_of_upperCase hname) hbefore
      (fun c hc => not_isBlank_of_upperCase hname hc) hafter
    rw [ofName?, hs, htrim, hname]
    exact kind.find?_name

/-- A text that names a kind has no other characters than those that can spell one. -/
theorem SpelledBy.canSpell (h : kind.SpelledBy s) {c : Char} (hc : c ∈ s.toList) :
    canSpell c = true := by
  obtain ⟨before, core, after, hs, hbefore, hname, hafter⟩ := h
  rw [hs, List.mem_append, List.mem_append] at hc
  rw [Kind.canSpell, Bool.or_eq_true]
  rcases hc with hc | hc | hc
  · exact .inl (hbefore c hc)
  · right
    rw [List.all_eq_true]
    intro d hd
    rw [List.any_eq_true]
    refine ⟨kind, mem_all kind, ?_⟩
    rw [List.contains_iff_mem, ← hname]
    exact List.mem_flatMap.mpr ⟨c, hc, hd⟩
  · exact .inl (hafter c hc)

/-- A text with a character that is in no name does not name a kind. -/
theorem ofName?_eq_none_of_mem {c : Char} (hc : c ∈ s.toList) (h : canSpell c = false) :
    ofName? s = none := by
  cases hname : ofName? s with
  | none => rfl
  | some kind =>
    have hspell := (ofName?_eq_some_iff.mp hname).canSpell hc
    rw [h] at hspell
    cases hspell

/-- No name of a kind has a digit. -/
theorem canSpell_of_isDigit {c : Char} (h : c.isDigit) : Kind.canSpell c = false := by
  simp only [Char.isDigit, Bool.and_eq_true, decide_eq_true_eq, UInt32.le_iff_toNat_le] at h
  have hlow : '0'.val.toNat = 0x30 := rfl
  have hhigh : '9'.val.toNat = 0x39 := rfl
  have hcode : c.toNat = c.val.toNat := rfl
  rw [← c.ofNat_toNat]
  generalize c.toNat = n at *
  have hn : 0x30 ≤ n ∧ n ≤ 0x39 := by omega
  obtain ⟨hn, hn'⟩ := hn
  clear * - hn hn'
  interval_cases n <;> decide

end Kind

end AsmLexer

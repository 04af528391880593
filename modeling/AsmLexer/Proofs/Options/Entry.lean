import AsmLexer.Options
import AsmLexer.Proofs.Message
import AsmLexer.Proofs.Options.KindName

/-!
# Entries that name a kind

An entry of a configuration is looked up by its text, whatever it is. What is no text is shown with
a character that no name of a kind has: numbers and moments have digits or marks between them, lists
and tables have brackets. The few values that are shown as words are no names either. So only a text
names a kind (`kindOfEntry_eq_ok_iff`), and what is reported of another entry is its text
(`kindOfEntry_eq_error_iff`).
-/

set_option autoImplicit false

namespace AsmLexer

/-- A text with a character that no name of a kind has. -/
def Foreign (s : String) : Prop :=
  ∃ c ∈ s.toList, Kind.canSpell c = false

namespace Foreign

variable {s : String}

/-- A text with a foreign character names no kind. -/
theorem ofName? (h : Foreign s) : Kind.ofName? s = none := by
  obtain ⟨c, hc, hspell⟩ := h
  exact Kind.ofName?_eq_none_of_mem hc hspell

/-- A foreign character stays one behind other text. -/
theorem append_left (before : String) (h : Foreign s) : Foreign (before ++ s) := by
  obtain ⟨c, hc, hspell⟩ := h
  refine ⟨c, ?_, hspell⟩
  rw [String.toList_append]
  exact List.mem_append_right _ hc

/-- A foreign character stays one in front of other text. -/
theorem append_right (after : String) (h : Foreign s) : Foreign (s ++ after) := by
  obtain ⟨c, hc, hspell⟩ := h
  refine ⟨c, ?_, hspell⟩
  rw [String.toList_append]
  exact List.mem_append_left _ hc

end Foreign

/-! ## Numbers -/

/-- No number is written as the empty text. -/
theorem exists_mem_toString (n : Int) : ∃ c, c ∈ (toString n).toList := by
  cases n with
  | ofNat n =>
    obtain ⟨c, hc⟩ := List.exists_mem_of_ne_nil _ (@Nat.toDigits_ne_nil n 10)
    refine ⟨c, ?_⟩
    rw [show toString (Int.ofNat n) = String.ofList (Nat.toDigits 10 n) from rfl,
      String.toList_ofList]
    exact hc
  | negSucc n =>
    refine ⟨'-', ?_⟩
    rw [show toString (Int.negSucc n) = "-" ++ toString (n + 1) from rfl, String.toList_append]
    exact List.mem_append_left _ (by decide)

/-- A number has a digit, which no kind has. -/
theorem foreign_toString (n : Int) : Foreign (toString n) := by
  obtain ⟨c, hc⟩ := exists_mem_toString n
  refine ⟨c, hc, ?_⟩
  rcases mem_toString_int hc with rfl | hdigit
  · decide
  · exact Kind.canSpell_of_isDigit hdigit

namespace Binary64

/-- A number in decimal has a point or the sign of an exponent. -/
theorem foreign_decimalText (digits : Nat) (power : Int) : Foreign (decimalText digits power) := by
  unfold decimalText Foreign
  simp only [String.toList_ofList]
  split
  · -- the sign of the exponent stands behind its letter
    refine ⟨_, List.mem_append_left _ (List.mem_append_right _ (List.mem_cons_of_mem _
      List.mem_cons_self)), ?_⟩
    split <;> decide
  split
  · exact ⟨'.', by simp, by decide⟩
  split
  · exact ⟨'.', by simp, by decide⟩
  · exact ⟨'.', by simp, by decide⟩

/-- No kind is called like a float. -/
theorem ofName?_text (x : Binary64) : Kind.ofName? x.text = none := by
  cases x with
  | nan => decide
  | infinite negative => cases negative <;> decide
  | finite negative significand exponent =>
    apply Foreign.ofName?
    simp only [text]
    split
    · exact Foreign.append_left _ ⟨'.', by decide, by decide⟩
    · exact (foreign_decimalText _ _).append_left _

end Binary64

/-! ## Values -/

namespace Toml

/-- A date or a time has a digit, which no kind has. -/
theorem Moment.foreign_text (m : Moment) : Foreign m.text := by
  have hdate (d : Date) : Foreign d.text := by
    refine ⟨'-', ?_, by decide⟩
    simp [Date.text]
  cases m with
  | date d => exact hdate d
  | time t =>
    refine ⟨':', ?_, by decide⟩
    simp [text, Clock.text]
  | both d t ahead =>
    rw [text, String.append_assoc, String.append_assoc]
    exact (hdate d).append_right _

namespace Value

/-- An entry that names a kind: a text that spells it. -/
def Names (entry : Value) (kind : Kind) : Prop :=
  ∃ s, entry = .text s ∧ kind.SpelledBy s

/-- What is said of an entry that names no kind. -/
def Complaint (entry : Value) (e : OptionError) : Prop :=
  match entry.display with
  | .ok name => e = .unknownKind name
  | .error fault => e = .unshownEntry fault

variable {entry : Value} {name : String} {kind : Kind} {e : OptionError}

/-- What is no text is not shown as a name. -/
theorem ofName?_display (h : entry.display = .ok name) (htext : ∀ s, entry ≠ .text s) :
    Kind.ofName? name = none := by
  cases entry with
  | text s => exact absurd rfl (htext s)
  | integer n =>
    simp only [display, expression, decimal?] at h
    split at h
    · rename_i hdigits
      split at hdigits
      · cases hdigits
        cases h
        exact (foreign_toString n).ofName?
      · cases hdigits
    · cases h
  | real x =>
    cases h
    exact x.ofName?_text
  | truth b =>
    cases b <;> cases h <;> decide
  | moment m =>
    cases h
    exact m.foreign_text.ofName?
  | array items =>
    simp only [display, expression] at h
    cases hitems : itemExpressions deepestShown items with
    | error fault =>
      rw [hitems] at h
      cases h
    | ok shown =>
      rw [hitems] at h
      cases h
      have hbracket : Foreign "[" := ⟨'[', by decide, by decide⟩
      exact ((hbracket.append_right _).append_right _).ofName?
  | table entries =>
    simp only [display, expression] at h
    cases hentries : entryExpressions deepestShown entries with
    | error fault =>
      rw [hentries] at h
      cases h
    | ok shown =>
      rw [hentries] at h
      cases h
      have hbrace : Foreign "\x7b" := ⟨'\x7b', by decide, by decide⟩
      exact ((hbrace.append_right _).append_right _).ofName?

end Value

end Toml

/-! ## Looking up -/

section

variable {entry : Toml.Value} {name : String} {kind : Kind} {e : OptionError}

/-- A text stands for the kind that it spells. -/
theorem kindNamed_eq_ok_iff : kindNamed name = .ok kind ↔ kind.SpelledBy name := by
  rw [← Kind.ofName?_eq_some_iff, kindNamed]
  cases Kind.ofName? name with
  | none => simp
  | some other => simp

/-- A text that spells no kind is reported, and no other is. -/
theorem kindNamed_eq_error_iff :
    kindNamed name = .error e ↔ (¬ ∃ kind, Kind.SpelledBy kind name) ∧ e = .unknownKind name := by
  simp only [← Kind.ofName?_eq_some_iff, kindNamed]
  cases Kind.ofName? name with
  | none => simp [eq_comm]
  | some other => simp

/-- An entry is taken for the kind that it names. -/
theorem kindOfEntry_eq_ok_iff : kindOfEntry entry = .ok kind ↔ entry.Names kind := by
  constructor
  · intro h
    cases hdisplay : entry.display with
    | error fault =>
      rw [kindOfEntry, hdisplay] at h
      cases h
    | ok name =>
      rw [kindOfEntry, hdisplay] at h
      by_contra hnames
      have htext : ∀ s, entry ≠ .text s := by
        rintro s rfl
        cases hdisplay
        exact hnames ⟨name, rfl, kindNamed_eq_ok_iff.mp h⟩
      have hnone := Toml.Value.ofName?_display hdisplay htext
      simp [kindNamed, hnone] at h
  · rintro ⟨s, rfl, hspelled⟩
    exact kindNamed_eq_ok_iff.mpr hspelled

/-- Of an entry that names no kind its text is reported. -/
theorem kindOfEntry_eq_error_iff :
    kindOfEntry entry = .error e ↔ (¬ ∃ kind, entry.Names kind) ∧ entry.Complaint e := by
  simp only [← kindOfEntry_eq_ok_iff, Toml.Value.Complaint, kindOfEntry]
  cases entry.display with
  | error fault => simp [eq_comm]
  | ok name =>
    simp only [kindNamed]
    cases Kind.ofName? name with
    | none => simp [eq_comm]
    | some other => simp

end

end AsmLexer

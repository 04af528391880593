import AsmLexer.Text.Lines
import Mathlib.Data.List.Basic

/-!
# Lines

The lines of a text are what `List.splitOn` gives for the newline (`linesOf_eq_splitOn`), so what is
said here of splitting at any separator holds of lines. What holds of one line, and is passed on
when a line is put in front, holds of all texts (`lines_induction`). The line behind some whole ones
is found by counting their separators (`getElem?_splitOn_append`).
-/

set_option autoImplicit false

namespace AsmLexer

section

variable {α : Type} [DecidableEq α] {newline : α}

/-- A text is a single line, or a line and its newline in front of another text. -/
theorem lines_induction {P : List α → Prop} (single : ∀ line, newline ∉ line → P line)
    (cons : ∀ line more, newline ∉ line → P more → P (line ++ newline :: more))
    (text : List α) : P text := by
  by_cases h : newline ∈ text
  · obtain ⟨line, more, rfl, hline⟩ := List.eq_append_cons_of_mem h
    exact cons line more hline (lines_induction single cons more)
  · exact single text h
termination_by text.length
decreasing_by simp [*]; omega

/-- No line has a newline in it. -/
theorem notMem_of_mem_splitOn {text line : List α} (h : line ∈ text.splitOn newline) :
    newline ∉ line := by
  induction text using lines_induction with
  | single text htext =>
    rw [List.splitOn_eq_singleton htext, List.mem_singleton] at h
    rwa [h]
  | cons first more hfirst ih =>
    rw [List.splitOn_append_cons_self_of_not_mem hfirst, List.mem_cons] at h
    rcases h with rfl | h
    · exact hfirst
    · exact ih h

/-- There is one more line than there are newlines. -/
theorem length_splitOn (text : List α) :
    (text.splitOn newline).length = text.count newline + 1 := by
  induction text with
  | nil => rfl
  | cons c text ih =>
    rw [List.splitOn_cons_eq_if_modifyHead, List.count_cons]
    split
    · rw [List.length_cons, ih]
    · rw [List.length_modifyHead, ih, Nat.add_zero]

/-- Lines each of which has ended. -/
def WholeLines (newline : α) (lines : List α) : Prop :=
  lines = [] ∨ ∃ init, lines = init ++ [newline]

/-- Every run is some whole lines and the beginning of one more. -/
theorem exists_lines (newline : α) (run : List α) :
    ∃ lines line, run = lines ++ line ∧ newline ∉ line ∧
      WholeLines newline lines := by
  induction run with
  | nil => exact ⟨[], [], rfl, List.not_mem_nil, .inl rfl⟩
  | cons s run ih =>
    obtain ⟨lines, line, rfl, hline, hlines⟩ := ih
    rcases hlines with rfl | ⟨init, rfl⟩
    · by_cases hs : s = newline
      · exact ⟨[s], line, rfl, hline, .inr ⟨[], by rw [hs]; rfl⟩⟩
      · refine ⟨[], s :: line, rfl, ?_, .inl rfl⟩
        rw [List.mem_cons, not_or]
        exact ⟨Ne.symm hs, hline⟩
    · exact ⟨s :: (init ++ [newline]), line, rfl, hline, .inr ⟨s :: init, rfl⟩⟩

/-- Whole lines are as many lines as there are newlines in them. -/
theorem getElem?_splitOn_append {lines : List α}
    (hlines : WholeLines newline lines) (more : List α) :
    ((lines ++ more).splitOn newline)[lines.count newline]? = (more.splitOn newline).head? := by
  rcases hlines with rfl | ⟨init, rfl⟩
  · exact List.head?_eq_getElem?.symm
  · have hcount : (init ++ [newline]).count newline = (init.splitOn newline).length := by
      rw [length_splitOn, List.count_append, List.count_singleton_self]
    rw [List.append_assoc, List.singleton_append, List.splitOn_append_cons_self, hcount,
      List.getElem?_append_right (Nat.le_refl _), Nat.sub_self, List.head?_eq_getElem?]

/-- The first line of a text begins with what stands in front of every newline. -/
theorem exists_head?_splitOn {front : List α} (hfront : newline ∉ front) (more : List α) :
    ∃ line, ((front ++ more).splitOn newline).head? = some (front ++ line) := by
  induction front with
  | nil =>
    obtain ⟨line, lines, hlines⟩ := List.exists_cons_of_ne_nil (List.splitOn_ne_nil newline more)
    exact ⟨line, by rw [List.nil_append, hlines]; rfl⟩
  | cons c front ih =>
    rw [List.mem_cons, not_or] at hfront
    obtain ⟨line, hline⟩ := ih hfront.2
    refine ⟨line, ?_⟩
    rw [List.cons_append, List.splitOn_cons_eq_if_modifyHead,
      if_neg (by simpa using Ne.symm hfront.1), List.head?_modifyHead, hline]
    rfl

end

/-- What stands in front of a character other than the carriage return is kept with it. -/
theorem exists_withoutReturns {c : Char} (hc : c ≠ '\r') (front more : List Char) :
    ∃ rest, withoutReturns (front ++ c :: more) = front ++ c :: rest := by
  have hkept : (c :: front.reverse).dropWhile (· = '\r') = c :: front.reverse :=
    List.dropWhile_cons_of_neg (by simpa using hc)
  have hreverse : (front ++ c :: more).reverse = more.reverse ++ c :: front.reverse := by
    simp only [List.reverse_append, List.reverse_cons, List.append_assoc, List.singleton_append]
  rw [withoutReturns, hreverse, List.dropWhile_append, hkept]
  split
  · exact ⟨[], by simp⟩
  · exact ⟨(more.reverse.dropWhile (· = '\r')).reverse, by simp⟩

/-- Dropping carriage returns adds nothing to a line. -/
theorem mem_of_mem_withoutReturns {c : Char} {line : List Char} (h : c ∈ withoutReturns line) :
    c ∈ line := by
  rw [withoutReturns, List.mem_reverse] at h
  exact List.mem_reverse.mp ((List.dropWhile_sublist _).subset h)

/-- The lines of a text are what its newlines split it into. -/
theorem linesOf_eq_splitOn (text : List Char) : linesOf text = text.splitOn '\n' := by
  induction text with
  | nil => rfl
  | cons c text ih =>
    rw [linesOf, ih, List.splitOn_cons_eq_if_modifyHead]
    by_cases hc : c = '\n'
    · rw [if_pos hc, if_pos (by simpa using hc)]
    · rw [if_neg hc, if_neg (by simpa using hc)]
      obtain ⟨line, lines, hlines⟩ := List.exists_cons_of_ne_nil (List.splitOn_ne_nil '\n' text)
      rw [hlines]
      rfl

end AsmLexer

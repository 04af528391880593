import AsmLexer.Position
import AsmLexer.Proofs.Utf8.Symbols

/-!
# Positions along a run of symbols

`Position.afterAll` is the place after a run of symbols. Its three numbers are read off the run: the
offset counts bytes, the line counts newlines, and the column counts the symbols behind the last
newline. A place can be moved down by lines and bytes before or after the run
(`Position.afterAll_shift`), so a run says nothing about where in a source it stands.
-/

set_option autoImplicit false

namespace AsmLexer.Position

/-- The place after a run of symbols. -/
def afterAll (p : Position) (run : List Symbol) : Position :=
  run.foldl after p

/-- The same place in a source that has this many lines and bytes more in front. -/
def shift (lines bytes : Int) (p : Position) : Position :=
  ⟨p.line + lines, p.column, p.offset + bytes⟩

/-- Where nothing is read, the place stays. -/
@[simp] theorem afterAll_nil (p : Position) : p.afterAll [] = p := rfl

/-- Symbols are passed one after the other. -/
@[simp] theorem afterAll_cons (p : Position) (s : Symbol) (run : List Symbol) :
    p.afterAll (s :: run) = (p.after s).afterAll run := rfl

/-- Two runs of symbols are passed one behind the other. -/
@[simp] theorem afterAll_append (p : Position) (run more : List Symbol) :
    p.afterAll (run ++ more) = (p.afterAll run).afterAll more :=
  List.foldl_append

/-! ## One symbol -/

/-- A newline begins the next line. -/
theorem after_newline (p : Position) :
    p.after (.char '\n') = ⟨p.line + 1, 1, p.offset + 1⟩ := rfl

/-- Any other symbol takes one column and its bytes. -/
theorem after_of_ne_newline (p : Position) {s : Symbol} (h : s ≠ .char '\n') :
    p.after s = ⟨p.line, p.column + 1, p.offset + s.size⟩ := by
  cases s with
  | malformed byte => rfl
  | char c =>
    have hc : c ≠ '\n' := fun heq => h (congrArg Symbol.char heq)
    simp only [after, advance, if_neg hc, Symbol.size]

/-- The offset grows by the bytes of a symbol. -/
theorem offset_after (p : Position) (s : Symbol) : (p.after s).offset = p.offset + s.size := by
  by_cases h : s = .char '\n'
  · subst h
    rfl
  · rw [after_of_ne_newline p h]

/-- A place that was moved as a whole goes on as before. -/
theorem after_shift (lines bytes : Int) (p : Position) (s : Symbol) :
    (p.shift lines bytes).after s = (p.after s).shift lines bytes := by
  by_cases h : s = .char '\n'
  · subst h
    simp only [after_newline, shift, Int.add_right_comm]
  · simp only [after_of_ne_newline _ h, shift, Int.add_right_comm]

/-! ## A run of symbols -/

/-- The offset behind a run counts its bytes. -/
theorem offset_afterAll (p : Position) (run : List Symbol) :
    (p.afterAll run).offset = p.offset + (run.flatMap Symbol.bytes).length := by
  induction run generalizing p with
  | nil => simp
  | cons s run ih =>
    rw [afterAll_cons, ih, offset_after, List.flatMap_cons, List.length_append, s.length_bytes]
    omega

/-- From the beginning of a source the offset is the number of bytes. -/
theorem offset_origin_afterAll (run : List Symbol) :
    (origin.afterAll run).offset = (run.flatMap Symbol.bytes).length := by
  rw [offset_afterAll]
  exact Int.zero_add _

/-- The line behind a run counts its newlines. -/
theorem line_afterAll (p : Position) (run : List Symbol) :
    (p.afterAll run).line = p.line + run.count (.char '\n') := by
  induction run generalizing p with
  | nil => simp
  | cons s run ih =>
    rw [afterAll_cons, ih]
    by_cases h : s = .char '\n'
    · subst h
      rw [after_newline, List.count_cons_self]
      dsimp only
      omega
    · rw [after_of_ne_newline p h, List.count_cons_of_ne h]

/-- On a line the column counts the symbols. -/
theorem column_afterAll_of_notMem (p : Position) {run : List Symbol} (h : .char '\n' ∉ run) :
    (p.afterAll run).column = p.column + run.length := by
  induction run generalizing p with
  | nil => simp
  | cons s run ih =>
    rw [List.mem_cons, not_or] at h
    rw [afterAll_cons, ih _ h.2, after_of_ne_newline p (Ne.symm h.1), List.length_cons]
    dsimp only
    omega

/-- A run on one line takes a column for each of its symbols. -/
theorem afterAll_of_notMem (p : Position) {run : List Symbol} (h : .char '\n' ∉ run) :
    p.afterAll run =
      ⟨p.line, p.column + run.length, p.offset + (run.flatMap Symbol.bytes).length⟩ := by
  have hline := line_afterAll p run
  have hcolumn := column_afterAll_of_notMem p h
  have hoffset := offset_afterAll p run
  rw [List.count_eq_zero_of_not_mem h] at hline
  cases hp : p.afterAll run with
  | mk line column offset =>
    rw [hp] at hline hcolumn hoffset
    dsimp only at hline hcolumn hoffset
    rw [hline, hcolumn, hoffset]
    simp

/-- Behind a newline the column counts anew. -/
theorem column_afterAll_newline (p : Position) (run : List Symbol) {line : List Symbol}
    (h : .char '\n' ∉ line) :
    (p.afterAll (run ++ .char '\n' :: line)).column = 1 + line.length := by
  rw [afterAll_append, afterAll_cons, column_afterAll_of_notMem _ h, after_newline]

/-- A place that was moved as a whole goes on as before, by any run. -/
theorem afterAll_shift (lines bytes : Int) (p : Position) (run : List Symbol) :
    (p.shift lines bytes).afterAll run = (p.afterAll run).shift lines bytes := by
  induction run generalizing p with
  | nil => rfl
  | cons s run ih => rw [afterAll_cons, afterAll_cons, after_shift, ih]

end AsmLexer.Position

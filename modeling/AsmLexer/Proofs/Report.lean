import AsmLexer.Report
import AsmLexer.Proofs.Scanner.Tokens

/-!
# Reports hold the tokens of their source

A report under a limit pulls tokens as `tokenize` does, and counts the errors on the way. So its
tokens are those of the source up to the error whose number is the limit (`Report.tokens_ofSource`),
and scanning was stopped exactly if there is an error with that number
(`Report.truncated_ofSource`). Which tokens these are is said of any list by `uptoError`.
-/

set_option autoImplicit false

namespace AsmLexer

/-- The error tokens among some tokens. -/
def errorsOf (tokens : List Token) : List Token :=
  tokens.filter fun t => t.kind = .error

/-- The beginning of some tokens that ends with the error of this number, counted from one. It is
all of them if there are not so many errors, and for the number zero. -/
def uptoError : Nat → List Token → List Token
  | _, [] => []
  | number, t :: more =>
    if t.kind = .error then
      if number = 1 then [t] else t :: uptoError (number - 1) more
    else t :: uptoError number more

section

variable {t : Token} {more tokens : List Token} {number : Nat}

/-- There are no errors among no tokens. -/
@[simp] theorem errorsOf_nil : errorsOf [] = [] := rfl

/-- An error in front is counted. -/
@[simp] theorem errorsOf_cons_of_error (h : t.kind = .error) :
    errorsOf (t :: more) = t :: errorsOf more := by
  simp [errorsOf, h]

/-- Any other token in front is not counted. -/
@[simp] theorem errorsOf_cons_of_ne (h : t.kind ≠ .error) :
    errorsOf (t :: more) = errorsOf more := by
  simp [errorsOf, h]

/-! ## The beginning up to an error -/

/-- A token that is no error belongs to the beginning. -/
@[simp] theorem uptoError_cons_of_ne (h : t.kind ≠ .error) :
    uptoError number (t :: more) = t :: uptoError number more := by
  rw [uptoError, if_neg h]

/-- With the first error the beginning is over. -/
@[simp] theorem uptoError_one_cons (h : t.kind = .error) : uptoError 1 (t :: more) = [t] := by
  rw [uptoError, if_pos h, if_pos rfl]

/-- An error in front of the last one leaves one fewer to come. -/
theorem uptoError_cons_of_ne_one (h : t.kind = .error) (hnumber : number ≠ 1) :
    uptoError number (t :: more) = t :: uptoError (number - 1) more := by
  rw [uptoError, if_pos h, if_neg hnumber]

/-- No error has the number zero, so the beginning is all of the tokens. -/
@[simp] theorem uptoError_zero (tokens : List Token) : uptoError 0 tokens = tokens := by
  induction tokens with
  | nil => rfl
  | cons t more ih => by_cases h : t.kind = .error <;> simp [uptoError, h, ih]

/-- Tokens without so many errors are not cut off. -/
theorem uptoError_of_length_lt (h : (errorsOf tokens).length < number) :
    uptoError number tokens = tokens := by
  induction tokens generalizing number with
  | nil => rfl
  | cons t more ih =>
    by_cases hkind : t.kind = .error
    · rw [errorsOf_cons_of_error hkind, List.length_cons] at h
      rw [uptoError_cons_of_ne_one hkind (by omega), ih (by omega)]
    · rw [errorsOf_cons_of_ne hkind] at h
      rw [uptoError_cons_of_ne hkind, ih h]

/-- Tokens with so many errors are cut off behind the error of the number. -/
theorem exists_uptoError (hpos : 0 < number) (h : number ≤ (errorsOf tokens).length) :
    ∃ front last rest, tokens = front ++ last :: rest ∧ last.kind = .error ∧
      (errorsOf front).length + 1 = number ∧ uptoError number tokens = front ++ [last] := by
  induction tokens generalizing number with
  | nil =>
    rw [errorsOf_nil, List.length_nil] at h
    omega
  | cons t more ih =>
    by_cases hkind : t.kind = .error
    · by_cases hone : number = 1
      · subst hone
        exact ⟨[], t, more, rfl, hkind, rfl, uptoError_one_cons hkind⟩
      · rw [errorsOf_cons_of_error hkind, List.length_cons] at h
        obtain ⟨front, last, rest, rfl, hlast, hcount, hcut⟩ :=
          @ih (number - 1) (by omega) (by omega)
        refine ⟨t :: front, last, rest, rfl, hlast, ?_, ?_⟩
        · rw [errorsOf_cons_of_error hkind, List.length_cons]
          omega
        · rw [uptoError_cons_of_ne_one hkind hone, hcut, List.cons_append]
    · rw [errorsOf_cons_of_ne hkind] at h
      obtain ⟨front, last, rest, rfl, hlast, hcount, hcut⟩ := ih hpos h
      refine ⟨t :: front, last, rest, rfl, hlast, ?_, ?_⟩
      · rw [errorsOf_cons_of_ne hkind, hcount]
      · rw [uptoError_cons_of_ne hkind, hcut, List.cons_append]

/-- The errors of the beginning are the first errors. -/
theorem errorsOf_uptoError (hpos : 0 < number) (tokens : List Token) :
    errorsOf (uptoError number tokens) = (errorsOf tokens).take number := by
  induction tokens generalizing number with
  | nil => rw [uptoError, errorsOf_nil, List.take_nil]
  | cons t more ih =>
    by_cases hkind : t.kind = .error
    · obtain ⟨n, rfl⟩ : ∃ n, number = n + 1 := ⟨number - 1, by omega⟩
      by_cases hone : n = 0
      · subst hone
        simp [hkind]
      · rw [uptoError_cons_of_ne_one hkind (by omega), errorsOf_cons_of_error hkind,
          errorsOf_cons_of_error hkind, List.take_succ_cons, Nat.add_sub_cancel, ih (by omega)]
    · rw [uptoError_cons_of_ne hkind, errorsOf_cons_of_ne hkind, errorsOf_cons_of_ne hkind, ih hpos]

/-- A later error cuts off less. -/
theorem uptoError_isPrefix_uptoError {m n : Nat} (hpos : 0 < m) (hle : m ≤ n)
    (tokens : List Token) : uptoError m tokens <+: uptoError n tokens := by
  induction tokens generalizing m n with
  | nil => exact List.prefix_rfl
  | cons t more ih =>
    by_cases hkind : t.kind = .error
    · by_cases hone : m = 1
      · subst hone
        rw [uptoError_one_cons hkind]
        by_cases hn : n = 1
        · simp [hn, hkind]
        · rw [uptoError_cons_of_ne_one hkind hn]
          exact List.prefix_append [t] _
      · rw [uptoError_cons_of_ne_one hkind hone, uptoError_cons_of_ne_one hkind (by omega)]
        rw [List.prefix_cons_inj]
        apply ih
        · omega
        · omega
    · rw [uptoError_cons_of_ne hkind, uptoError_cons_of_ne hkind, List.prefix_cons_inj]
      exact ih hpos hle

end

/-! ## Pulling under a limit -/

namespace Scanner

/-- What holds at the last token, and is passed on in front of a pull, holds of every scanner. -/
theorem drain_induction {P : Scanner → Prop}
    (last : ∀ sc, sc.pull.1.kind = .endOfFile → P sc)
    (more : ∀ sc, sc.pull.1.kind ≠ .endOfFile → P sc.pull.2 → P sc) (sc : Scanner) : P sc := by
  by_cases h : sc.pull.1.kind = .endOfFile
  · exact last sc h
  · exact more sc h (drain_induction last more sc.pull.2)
termination_by sc.remaining
decreasing_by exact remaining_pull_lt h

/-- At the end of the source one token is left. -/
theorem drain_of_end {sc : Scanner} (h : sc.pull.1.kind = .endOfFile) :
    sc.drain.1 = [sc.pull.1] := by
  rw [drain_eq, if_pos h]

/-- Before the end, a token is pulled and the others come behind it. -/
theorem drain_of_ne_end {sc : Scanner} (h : sc.pull.1.kind ≠ .endOfFile) :
    sc.drain.1 = sc.pull.1 :: sc.pull.2.drain.1 := by
  rw [drain_eq, if_neg h]

/-- At the end of the source no limit stops the scanner. -/
theorem drainUpTo_of_end {sc : Scanner} (h : sc.pull.1.kind = .endOfFile) (limit : Int)
    (count : Nat) : sc.drainUpTo limit count = ([sc.pull.1], none) := by
  rw [drainUpTo]
  split
  rename_i token sc' hpull
  rw [hpull] at h ⊢
  rw [dif_pos h]

/-- Before the end, the limit is tried at each error. -/
theorem drainUpTo_of_ne_end {sc : Scanner} (h : sc.pull.1.kind ≠ .endOfFile) (limit : Int)
    (count : Nat) :
    sc.drainUpTo limit count =
      let errors := if sc.pull.1.kind = .error then count + 1 else count;
      if sc.pull.1.kind = .error ∧ reachesLimit limit errors then
        ([sc.pull.1], some sc.pull.2.start.pos)
      else (sc.pull.1 :: (sc.pull.2.drainUpTo limit errors).1,
        (sc.pull.2.drainUpTo limit errors).2) := by
  rw [drainUpTo]
  split
  rename_i token sc' hpull
  rw [hpull] at h ⊢
  rw [dif_neg h]

/-- A limit is reached if it is a limit at all and there are as many errors. -/
theorem reachesLimit_iff {limit count : Nat} :
    reachesLimit limit count = true ↔ 0 < limit ∧ limit ≤ count := by
  simp only [reachesLimit, Bool.and_eq_true, decide_eq_true_eq]
  omega

/-- Under a limit the tokens are those up to the error that reaches it, and pulling was stopped if
there is such an error. -/
theorem drainUpTo_spec {limit count : Nat} (h : limit = 0 ∨ count < limit) (sc : Scanner) :
    (sc.drainUpTo limit count).1 = uptoError (limit - count) sc.drain.1 ∧
      ((sc.drainUpTo limit count).2.isSome ↔
        0 < limit ∧ limit ≤ count + (errorsOf sc.drain.1).length) := by
  induction sc using drain_induction generalizing count with
  | last sc hend =>
    have hkind : sc.pull.1.kind ≠ .error := by simp [hend]
    rw [drainUpTo_of_end hend, drain_of_end hend]
    constructor
    · rw [uptoError_cons_of_ne hkind, uptoError]
    · rw [errorsOf_cons_of_ne hkind]
      simp
      omega
  | more sc hend ih =>
    rw [drainUpTo_of_ne_end hend, drain_of_ne_end hend]
    by_cases hkind : sc.pull.1.kind = .error
    · simp only [hkind, true_and, if_true, reachesLimit_iff, errorsOf_cons_of_error,
        List.length_cons]
      by_cases hreached : 0 < limit ∧ limit ≤ count + 1
      · have hone : limit - count = 1 := by omega
        rw [if_pos hreached, hone, uptoError_one_cons hkind]
        simp
        omega
      · -- the error is counted and does not reach the limit yet
        obtain ⟨htokens, hstop⟩ := @ih (count + 1) (by omega)
        have hnumber : limit - count - 1 = limit - (count + 1) := by omega
        rw [if_neg hreached, uptoError_cons_of_ne_one hkind (by omega), hnumber, htokens, hstop]
        refine ⟨rfl, ?_⟩
        omega
    · obtain ⟨htokens, hstop⟩ := ih h
      simp only [hkind, false_and, if_false]
      rw [uptoError_cons_of_ne hkind, errorsOf_cons_of_ne hkind, htokens, hstop]
      simp

end Scanner

/-! ## Reports -/

namespace Report

/-- The tokens of a report go up to the error that reaches the limit. -/
theorem tokens_ofSource (limit : Nat) (source : List UInt8) :
    (ofSource limit source).tokens = uptoError limit (tokenize source) := by
  have hspec := @Scanner.drainUpTo_spec limit 0 (by omega) (.ofSource source)
  exact hspec.1

/-- A report is cut short if there are as many errors as its limit. -/
theorem truncated_ofSource (limit : Nat) (source : List UInt8) :
    (ofSource limit source).truncated = true ↔
      0 < limit ∧ limit ≤ (errorsOf (tokenize source)).length := by
  have hspec := @Scanner.drainUpTo_spec limit 0 (by omega) (.ofSource source)
  rw [Nat.zero_add] at hspec
  exact hspec.2

/-- The errors of a report are those among its tokens. -/
theorem errors_eq_errorsOf (r : Report) : r.errors = errorsOf r.tokens := rfl

/-- A limit leaves out errors only behind the first. -/
theorem errors_ofSource_eq_nil_iff (limit : Nat) (source : List UInt8) :
    (ofSource limit source).errors = [] ↔ errorsOf (tokenize source) = [] := by
  rw [errors_eq_errorsOf, tokens_ofSource]
  by_cases h : limit = 0
  · rw [h, uptoError_zero]
  · rw [errorsOf_uptoError (by omega), List.take_eq_nil_iff, or_iff_right h]

end Report

end AsmLexer

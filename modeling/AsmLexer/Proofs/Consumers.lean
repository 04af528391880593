import AsmLexer.Editor
import AsmLexer.Proofs.Report

/-!
# All consumers see the same tokens

Four consumers pull tokens from a scanner and stop at different places. `tokenize` goes on to the
end, a strict scan stops at the first error, a report stops at the error that reaches its limit, and
an editor looks at the errors only. What each of them gives is said of the tokens that `tokenize`
gives and of the errors among them (`consumers_agree`).
-/

set_option autoImplicit false

namespace AsmLexer

/-! ## Strict scans -/

namespace Scanner

/-- At the end of a source a strict scan gives the token that says so. -/
theorem drainStrict_of_end {sc : Scanner} (h : sc.pull.1.kind = .endOfFile) :
    sc.drainStrict = .ok [sc.pull.1] := by
  rw [drainStrict]
  split
  rename_i token sc' hpull
  rw [hpull] at h ⊢
  rw [dif_pos h]

/-- At an error a strict scan gives up the tokens before it. -/
theorem drainStrict_of_error {sc : Scanner} (h : sc.pull.1.kind = .error) :
    sc.drainStrict = .error sc.pull.1 := by
  rw [drainStrict]
  split
  rename_i token sc' hpull
  rw [hpull] at h ⊢
  have hkind : token.kind = .error := h
  have hend : token.kind ≠ .endOfFile := by simp [hkind]
  rw [dif_neg hend, if_pos h]

/-- In front of any other token a strict scan goes on behind it. -/
theorem drainStrict_of_ne {sc : Scanner} (hend : sc.pull.1.kind ≠ .endOfFile)
    (h : sc.pull.1.kind ≠ .error) :
    sc.drainStrict = (sc.pull.1 :: ·) <$> sc.pull.2.drainStrict := by
  rw [drainStrict]
  split
  rename_i token sc' hpull
  rw [hpull] at h hend ⊢
  rw [dif_neg hend, if_neg h]

/-- A strict scan gives all tokens, or else the first error. -/
theorem drainStrict_eq (sc : Scanner) :
    sc.drainStrict = match errorsOf sc.drain.1 with
      | [] => .ok sc.drain.1
      | first :: _ => .error first := by
  induction sc using drain_induction with
  | last sc hend =>
    have hkind : sc.pull.1.kind ≠ .error := by simp [hend]
    rw [drainStrict_of_end hend, drain_of_end hend, errorsOf_cons_of_ne hkind, errorsOf_nil]
  | more sc hend ih =>
    rw [drain_of_ne_end hend]
    by_cases hkind : sc.pull.1.kind = .error
    · rw [drainStrict_of_error hkind, errorsOf_cons_of_error hkind]
    · rw [drainStrict_of_ne hend hkind, errorsOf_cons_of_ne hkind, ih]
      cases errorsOf sc.pull.2.drain.1 with
      | nil => rfl
      | cons first more => rfl

end Scanner

/-- A strict scan of a source gives its tokens, or else the first error among them. -/
theorem drainStrict_ofSource (source : List UInt8) :
    (Scanner.ofSource source).drainStrict = match errorsOf (tokenize source) with
      | [] => .ok (tokenize source)
      | first :: _ => .error first :=
  Scanner.drainStrict_eq _

/-- Without errors a strict scan is a scan. -/
theorem tokenizeStrict_of_errorFree {source : List UInt8}
    (h : errorsOf (tokenize source) = []) : tokenizeStrict source = .ok (tokenize source) := by
  rw [tokenizeStrict, drainStrict_ofSource, h]

/-- With errors a strict scan is the diagnostic of the first. -/
theorem tokenizeStrict_of_error {source : List UInt8} {first : Token} {more : List Token}
    (h : errorsOf (tokenize source) = first :: more) :
    tokenizeStrict source = .error ⟨first.message, first.pos, source⟩ := by
  rw [tokenizeStrict, drainStrict_ofSource, h]

/-! ## Reports and marks -/

/-- A report of a source that was stopped at its limit and nowhere else. -/
structure Report.Keeps (r : Report) (source : List UInt8) (limit : Nat) : Prop where
  source_eq : r.source = source
  /-- All tokens are there if the limit is none, or if there are not so many errors. -/
  complete : limit = 0 ∨ (errorsOf (tokenize source)).length < limit → r.tokens = tokenize source
  /-- Otherwise the error that reaches the limit is the last token. -/
  stopped : 0 < limit → limit ≤ (errorsOf (tokenize source)).length →
    ∃ front last rest, tokenize source = front ++ last :: rest ∧ last.kind = .error ∧
      (errorsOf front).length + 1 = limit ∧ r.tokens = front ++ [last]
  errors_eq : r.errors = errorsOf r.tokens
  /-- The errors are the first ones of the source. -/
  errors_take : r.errors = if limit = 0 then errorsOf (tokenize source)
    else (errorsOf (tokenize source)).take limit
  truncated_iff : r.truncated = true ↔ 0 < limit ∧ limit ≤ (errorsOf (tokenize source)).length

/-- A report under a limit is cut off at the error that reaches it and nowhere else. -/
theorem Report.keeps_ofSource (limit : Nat) (source : List UInt8) :
    (ofSource limit source).Keeps source limit where
  source_eq := rfl
  complete := by
    intro h
    rw [tokens_ofSource]
    rcases h with rfl | h
    · exact uptoError_zero _
    · exact uptoError_of_length_lt h
  stopped := by
    intro hpos h
    rw [tokens_ofSource]
    exact exists_uptoError hpos h
  errors_eq := rfl
  errors_take := by
    rw [errors_eq_errorsOf, tokens_ofSource]
    by_cases hzero : limit = 0
    · rw [if_pos hzero, hzero, uptoError_zero]
    · rw [if_neg hzero]
      apply errorsOf_uptoError
      omega
  truncated_iff := truncated_ofSource limit source

/-- The diagnostics of a report without a limit are those of all errors, one after the other. -/
theorem Report.diagnostics_ofSource_zero (source : List UInt8) (fileName : String) :
    (ofSource 0 source).diagnostics fileName =
      String.join ((errorsOf (tokenize source)).map fun t =>
        (Diagnostic.mk t.message t.pos source).format fileName ++ "\n") := by
  have htokens : (ofSource 0 source).tokens = tokenize source := by
    have hlimited := tokens_ofSource 0 source
    rwa [uptoError_zero] at hlimited
  rw [diagnostics, errors_eq_errorsOf, htokens]
  rfl

/-- A strict scan, a report under any limit, the diagnostics of a report and the marks of an editor
all show the tokens of a source and the errors among them. -/
theorem consumers_agree (source : List UInt8) :
    (errorsOf (tokenize source) = [] → tokenizeStrict source = .ok (tokenize source)) ∧
    (∀ first more, errorsOf (tokenize source) = first :: more →
      ∃ d, Diagnostic.ofToken? first source = some d ∧ d.message = first.message ∧
        d.pos = first.pos ∧ d.source = source ∧ tokenizeStrict source = .error d) ∧
    (∀ limit : Nat, (Report.ofSource limit source).Keeps source limit) ∧
    (∀ m n : Nat, 0 < m → m ≤ n →
      (Report.ofSource m source).tokens <+: (Report.ofSource n source).tokens ∧
      (Report.ofSource m source).errors <+: (Report.ofSource n source).errors) ∧
    (∀ fileName, (Report.ofSource 0 source).diagnostics fileName =
      String.join ((errorsOf (tokenize source)).map fun t =>
        (Diagnostic.mk t.message t.pos source).format fileName ++ "\n")) ∧
    ∀ (document : String → String) (uri : String), Utf8.encode (document uri).toList = source →
      publication document uri = ⟨uri, (errorsOf (tokenize source)).map fun t =>
        ⟨t.pos.line - 1, t.pos.column - 1, t.message, .error, "asmscan"⟩⟩ := by
  refine ⟨tokenizeStrict_of_errorFree, ?_, fun limit => Report.keeps_ofSource limit source, ?_,
    Report.diagnostics_ofSource_zero source, ?_⟩
  · intro first more h
    have hmem : first ∈ errorsOf (tokenize source) := by
      rw [h]
      exact List.mem_cons_self
    have hkind : first.kind = .error := by
      have hkept := List.of_mem_filter hmem
      simpa using hkept
    exact ⟨_, if_pos hkind, rfl, rfl, rfl, tokenizeStrict_of_error h⟩
  · intro m n hpos hle
    have hcut := uptoError_isPrefix_uptoError hpos hle (tokenize source)
    rw [← Report.tokens_ofSource, ← Report.tokens_ofSource] at hcut
    exact ⟨hcut, hcut.filter _⟩
  · intro document uri htext
    rw [publication, marksOf, htext]
    rfl

end AsmLexer

import AsmLexer.Proofs.Grammar.Underway
import AsmLexer.Proofs.Offence
import AsmLexer.Proofs.Scanner.Lookahead

/-!
# How a piece comes out

A piece is whole, or it has a fault at its last symbol, or it is a base marker with no digits
(`nextPiece_outcome`). What such a faulty piece has taken in front of its fault was on the way to a
token: it is one already, or one more zero makes it one (`Completable`).
-/

set_option autoImplicit false

namespace AsmLexer

/-- Symbols that are a token by themselves or with one more zero, or that are none at all. -/
def Completable (before : List Symbol) : Prop :=
  before = [] ∨ ∃ more kind, (more = [] ∨ more = [.char '0']) ∧ kind ≠ .error ∧
    nextPiece (before ++ more) = .whole kind (before ++ more) []

/-- What pieces there are. -/
inductive Piece.Outcome : Piece → Prop where
  | whole (kind : Kind) (taken rest : List Symbol) : Outcome (.whole kind taken rest)
  | faulty {fault : Fault} {before : List Symbol} (bad : Symbol) (rest : List Symbol) :
      fault.atSymbol = true → fault.symbol = bad → Completable before →
      Outcome (.faulty fault before bad rest)
  | bareMarker {w : List Char} {rest : List Symbol} : w ∈ bareMarkers →
      (∀ s ∈ rest.head?, s.satisfies isSeparator = true) →
      Outcome ⟨.error, some (.malformedImmediate (String.ofList w)), [], w.map .char, rest⟩

/-- A run of symbols with a property of characters is text, up to what lacks it. -/
theorem exists_chars_run (keep : Char → Bool) (ahead : List Symbol) :
    ∃ (w : List Char) (behind : List Symbol), ahead = w.map .char ++ behind ∧
      (∀ c ∈ w, keep c = true) ∧ ∀ s ∈ behind.head?, s.satisfies keep = false := by
  obtain ⟨w, hw, hkeep⟩ := exists_chars_takeWhile keep ahead
  refine ⟨w, ahead.dropWhile (Symbol.satisfies keep), ?_, hkeep, fun s hs => ?_⟩
  · rw [← hw, List.takeWhile_append_dropWhile]
  · have hstops := List.head?_dropWhile_not (Symbol.satisfies keep) ahead
    rw [Option.mem_def.mp hs] at hstops
    exact hstops

/-! ## Numbers -/

/-- A number under way is an immediate value, if need be with one more zero. -/
theorem Underway.completable {state : State} {u : List Char} (h : Underway state u) :
    Completable (u.map .char) := by
  have hcompletes {more : List Char} (hnumeral : Numeral (u ++ more)) :
      nextPiece (u.map .char ++ more.map .char) =
        .whole .immediate (u.map .char ++ more.map .char) [] := by
    rw [← List.map_append]
    exact hnumeral.nextPiece_map
  right
  rcases h.numeral_or_bareMarker with hnumeral | hmarker
  · rw [← List.append_nil u] at hnumeral
    exact ⟨[], .immediate, .inl rfl, by decide, hcompletes hnumeral⟩
  · obtain ⟨base, hdigits, -⟩ := exists_base_of_bareMarker hmarker
    have hzero : ∀ c ∈ ['0'], isDigitIn base c :=
      List.forall_mem_singleton.mpr hdigits.zero_isDigitIn
    have hnumeral := hdigits.numeral_append (List.cons_ne_nil _ _) hzero
    exact ⟨[.char '0'], .immediate, .inr rfl, by decide, hcompletes hnumeral⟩

/-- Digits in front of a separator are whole, or a marker without digits. -/
theorem Digits.outcome_immediate {base : Nat} {u : List Char} (h : Digits base u)
    {rest : List Symbol} (hrest : ∀ s ∈ rest.head?, s.satisfies isSeparator = true) :
    (Piece.immediate base (u.map .char) rest).Outcome := by
  by_cases hlong : base = 8 ∨ base = 10 ∨ 2 < (Utf8.encode u).length
  · rw [immediate_eq_whole rest hlong]
    exact .whole _ _ _
  · rw [immediate_eq_malformed rest hlong]
    exact .bareMarker (h.mem_bareMarkers hlong) hrest

/-- A number ends before a separator. -/
theorem Underway.outcome_stop {state : State} {u : List Char} (h : Underway state u)
    {rest : List Symbol} (hrest : ∀ s ∈ rest.head?, s.satisfies isSeparator = true) :
    (nextPiece (u.map .char ++ rest)).Outcome := by
  rw [h.nextPiece_eq]
  cases h with
  | zero =>
    rw [afterZero_piece_stop hrest]
    exact .whole _ _ _
  | @digits base _ hdigits =>
    rw [digits_piece_stop base hrest]
    exact hdigits.outcome_immediate hrest

/-- The fault at a character is found there. -/
theorem faultAt_symbol (u : List Char) (c : Char) :
    (faultAt u c).atSymbol = true ∧ (faultAt u c).symbol = .char c := by
  unfold faultAt
  split
  · exact ⟨rfl, rfl⟩
  · exact ⟨rfl, rfl⟩

/-- A number that is underway comes to one of the outcomes. -/
theorem Underway.outcome {state : State} {u : List Char} (h : Underway state u)
    (ahead : List Symbol) : (nextPiece (u.map .char ++ ahead)).Outcome := by
  obtain ⟨w, behind, rfl, hw, hbehind⟩ := exists_chars_run (fun c => !isSeparator c) ahead
  have hw' : ∀ c ∈ w, ¬ isSeparator c := fun c hc => by simpa using hw c hc
  obtain ⟨state', u', v, hsplit, hunderway, hrefused⟩ := h.exists_stop hw'
  rw [← List.append_assoc, ← List.map_append, hsplit, List.map_append, List.append_assoc]
  cases v with
  | cons c v =>
    obtain ⟨hsymbol, hbad⟩ := faultAt_symbol u' c
    rw [List.map_cons, List.cons_append, hrefused c rfl]
    exact .faulty _ _ hsymbol hbad hunderway.completable
  | nil =>
    rw [List.map_nil, List.nil_append]
    cases behind with
    | nil => exact hunderway.outcome_stop fun s hs => nomatch hs
    | cons s behind =>
      cases s with
      | malformed byte =>
        rw [hunderway.nextPiece_malformed]
        exact .faulty _ _ rfl rfl hunderway.completable
      | char c =>
        apply hunderway.outcome_stop
        rintro _ ⟨⟩
        have hc := hbehind _ rfl
        simpa [Symbol.satisfies] using hc

/-! ## All pieces -/

/-- A word comes to one of the outcomes. -/
theorem word_outcome {kind : Kind} {c : Char} (hopens : Opens (.word kind) c)
    (ahead : List Symbol) : (nextPiece (.char c :: ahead)).Outcome := by
  have hkind : kind ≠ .error := by
    cases hopens with
    | name hinitial => cases hinitial <;> decide
  obtain ⟨run, stop, rfl, hrun, hstop⟩ := (State.word kind).exists_run ahead
  have hnext (more : List Symbol) : nextPiece (.char c :: (run ++ more)) =
      (State.word kind).piece (.char c :: run) more := by
    rw [nextPiece_of_opens hopens, (State.word kind).piece_append hrun]
    rfl
  have hend : ∀ s ∈ ([] : List Symbol).head?, s.satisfies (fun c => !isNameChar c) = true :=
    fun s hs => nomatch hs
  rw [hnext]
  cases stop with
  | nil =>
    rw [word_piece_stop kind hend]
    exact .whole _ _ _
  | cons s stop =>
    cases s with
    | malformed byte =>
      rw [word_piece_malformed]
      refine .faulty _ _ rfl rfl (.inr ⟨[], kind, .inl rfl, hkind, ?_⟩)
      have hbefore := hnext []
      rw [List.append_nil] at hbefore
      rw [List.append_nil, hbefore, word_piece_stop kind hend]
    | char d =>
      have hd : isNameChar d = false := hstop _ rfl
      rw [word_piece_stop kind]
      · exact .whole _ _ _
      · rintro _ ⟨⟩
        simp [Symbol.satisfies, hd]

/-- Whatever a character opens comes to one of the outcomes. -/
theorem Opens.outcome {state : State} {c : Char} (h : Opens state c) (ahead : List Symbol) :
    (nextPiece (.char c :: ahead)).Outcome := by
  cases h with
  | comment =>
    rw [nextPiece_of_opens .comment, State.piece]
    exact .whole _ _ _
  | space hne hblank =>
    rw [nextPiece_of_opens (.space hne hblank), State.piece]
    exact .whole _ _ _
  | name hinitial => exact word_outcome (.name hinitial) ahead
  | zero => exact Underway.zero.outcome ahead
  | digit hdigit => exact (Underway.digits (.decimal hdigit)).outcome ahead

/-- Every piece is one of the outcomes. -/
theorem nextPiece_outcome (symbols : List Symbol) : (nextPiece symbols).Outcome := by
  cases symbols with
  | nil =>
    rw [nextPiece_nil]
    exact .whole _ _ _
  | cons s ahead =>
    cases s with
    | malformed byte =>
      rw [nextPiece, State.piece]
      exact .faulty _ _ rfl rfl (.inl rfl)
    | char c =>
      cases hmark : punctuation? c with
      | some kind =>
        rw [nextPiece_of_punctuation (punctuation_of_eq_some hmark)]
        exact .whole _ _ _
      | none =>
        cases hopening : opening? c with
        | some state => exact (opens_of_eq_some hmark hopening).outcome ahead
        | none =>
          rw [nextPiece_of_illegal hmark hopening]
          exact .faulty _ _ rfl rfl (.inl rfl)

end AsmLexer

import AsmLexer.Scanner.Pull
import AsmLexer.Proofs.Advance

/-!
# What one token takes

The machine of `AsmLexer.Scanner` reads, undoes and emits through two cursors. `State.piece` says
what comes of it, on the symbols alone: given what a token has taken so far and the symbols ahead,
it is the piece that the token takes in the end. No position enters, so what a token is depends on
the symbols ahead and on nothing else.

The states of the machine are opened only to show that it takes these pieces; everything about
tokens is proved of pieces.
-/

set_option autoImplicit false

namespace AsmLexer

/-- What one token takes of the symbols ahead. -/
structure Piece where
  kind : Kind
  fault : Option Fault
  /-- The symbols of the piece in front of the place that the token names. -/
  before : List Symbol
  taken : List Symbol
  rest : List Symbol

namespace Piece

/-- A token without a fault. -/
def whole (kind : Kind) (taken rest : List Symbol) : Piece :=
  ⟨kind, none, [], taken, rest⟩

/-- A fault at a symbol that was read. -/
def faulty (fault : Fault) (before : List Symbol) (bad : Symbol) (rest : List Symbol) : Piece :=
  ⟨.error, some fault, before, before ++ [bad], rest⟩

/-- An immediate value up to its last digit. -/
def immediate (base : Nat) (taken rest : List Symbol) : Piece :=
  let raw := taken.flatMap Symbol.bytes
  if base = 8 ∨ base = 10 ∨ 2 < raw.length then whole .immediate taken rest
  else ⟨.error, some (.malformedImmediate (String.ofList (Utf8.decodeLossy raw))), [], taken, rest⟩

/-- The bytes of a piece. -/
def raw (p : Piece) : List UInt8 :=
  p.taken.flatMap Symbol.bytes

/-- The token of a piece that starts at a place. -/
def token (p : Piece) (pos : Position) : Token :=
  ⟨p.kind, pos.afterAll p.before, p.raw, (p.fault.map Fault.message).getD ""⟩

/-- The symbols behind the piece that belong to no token. -/
def gap (p : Piece) : List Symbol :=
  if p.fault.isSome then p.rest.takeWhile Symbol.staysOnLine else []

/-- The symbols from which the next token is taken. -/
def after (p : Piece) : List Symbol :=
  if p.fault.isSome then p.rest.dropWhile Symbol.staysOnLine else p.rest

/-- The gap and what is behind it are what the piece leaves. -/
theorem gap_append_after (p : Piece) : p.gap ++ p.after = p.rest := by
  unfold gap after
  split
  · exact List.takeWhile_append_dropWhile
  · rfl

/-- Without a fault the next token begins right behind the piece. -/
theorem gap_of_fault_eq_none {p : Piece} (h : p.fault = none) : p.gap = [] ∧ p.after = p.rest := by
  unfold gap after
  rw [h]
  exact ⟨rfl, rfl⟩

end Piece

/-- Whether a character continues white space on its line. -/
def isSpace (c : Char) : Bool :=
  c != '\n' && isBlank c

/-- The piece of a token that has taken some symbols and is in this state before the others. -/
def State.piece (state : State) (opened ahead : List Symbol) : Piece :=
  match state with
  | .any =>
    match ahead with
    | [] => .whole .endOfFile opened []
    | .malformed byte :: rest => .faulty (.invalidByte byte) opened (.malformed byte) rest
    | .char c :: rest =>
      match punctuation? c, _h : opening? c with
      | some kind, _ => .whole kind (opened ++ [.char c]) rest
      | none, some state => state.piece (opened ++ [.char c]) rest
      | none, none => .faulty (.illegalSymbol c) opened (.char c) rest
  | .space =>
    .whole .space (opened ++ ahead.takeWhile (Symbol.satisfies isSpace))
      (ahead.dropWhile (Symbol.satisfies isSpace))
  | .comment =>
    .whole .comment (opened ++ ahead.takeWhile Symbol.staysOnLine)
      (ahead.dropWhile Symbol.staysOnLine)
  | .afterZero =>
    match ahead with
    | [] => .whole .immediate opened []
    | .malformed byte :: rest => .faulty (.invalidByte byte) opened (.malformed byte) rest
    | .char c :: rest =>
      if c = 'b' ∨ c = 'B' then State.piece (.digits 2) (opened ++ [.char c]) rest
      else if c = 'x' ∨ c = 'X' then State.piece (.digits 16) (opened ++ [.char c]) rest
      else if isSeparator c then .whole .immediate opened (.char c :: rest)
      else if '0' ≤ c ∧ c ≤ '9' then State.piece (.digits 8) opened (.char c :: rest)
      else .faulty (.illegalAfterZero c) opened (.char c) rest
  | .digits base =>
    let taken := opened ++ ahead.takeWhile (Symbol.satisfies (isDigitIn base))
    match ahead.dropWhile (Symbol.satisfies (isDigitIn base)) with
    | [] => .immediate base taken []
    | .malformed byte :: rest => .faulty (.invalidByte byte) taken (.malformed byte) rest
    | .char c :: rest =>
      if isSeparator c then .immediate base taken (.char c :: rest)
      else .faulty (.illegalDigit c base) taken (.char c) rest
  | .word kind =>
    let taken := opened ++ ahead.takeWhile (Symbol.satisfies isNameChar)
    match ahead.dropWhile (Symbol.satisfies isNameChar) with
    | [] => .whole kind taken []
    | .malformed byte :: rest => .faulty (.invalidByte byte) taken (.malformed byte) rest
    | .char c :: rest => .whole kind taken (.char c :: rest)
  | .skipLine => State.piece .any [] (ahead.dropWhile Symbol.staysOnLine)
termination_by state.rank
decreasing_by
  · exact rank_lt_of_opening _h
  all_goals decide

/-- The piece that a token takes whose symbols are all ahead. -/
def nextPiece (symbols : List Symbol) : Piece :=
  State.piece .any [] symbols

/-! ## What every piece keeps -/

/-- The states in which a token goes on. -/
def State.Continues : State → Prop
  | .any | .skipLine => False
  | .digits base => base = 2 ∨ base = 8 ∨ base = 10 ∨ base = 16
  | .word kind => kind = .identifier ∨ kind = .directive ∨ kind = .builtin
  | .space | .comment | .afterZero => True

/-- Whatever a character opens goes on with its token. -/
theorem continues_of_opening {c : Char} {state : State} (h : opening? c = some state) :
    state.Continues := by
  unfold opening? at h
  repeat' split at h
  all_goals cases h
  all_goals simp [State.Continues]

/-- A digit that opens a number opens a decimal one. -/
theorem opening?_digits {c : Char} {base : Nat} (h : opening? c = some (.digits base)) :
    base = 10 := by
  unfold opening? at h
  repeat' split at h
  all_goals simp_all

/-- A piece that begins with what was taken before and goes on with what is ahead. -/
structure Piece.Fits (p : Piece) (opened ahead : List Symbol) : Prop where
  covers : p.taken ++ p.rest = opened ++ ahead
  opened_isPrefix : opened <+: p.taken
  kind_eq_error_iff : p.kind = .error ↔ p.fault.isSome
  kind_ne_endOfFile : p.kind ≠ .endOfFile
  before_of_none : p.fault = none → p.before = []
  before_of_some : p.fault.isSome → ∃ bad more, p.taken = p.before ++ bad :: more
  newline_notMem : p.kind ≠ .endOfLine → .char '\n' ∉ p.taken

namespace Piece

variable {opened ahead taken rest : List Symbol}

/-- A token without a fault fits where its symbols stand. -/
theorem whole_fits {kind : Kind} (hkind : kind ≠ .error ∧ kind ≠ .endOfFile)
    (hcovers : taken ++ rest = opened ++ ahead) (hopened : opened <+: taken)
    (hline : kind ≠ .endOfLine → .char '\n' ∉ taken) :
    (whole kind taken rest).Fits opened ahead where
  covers := hcovers
  opened_isPrefix := hopened
  kind_eq_error_iff := by simp [whole, hkind.1]
  kind_ne_endOfFile := hkind.2
  before_of_none := fun _ => rfl
  before_of_some := by simp [whole]
  newline_notMem := hline

/-- A token up to a bad symbol fits where its symbols stand. -/
theorem faulty_fits {fault : Fault} {before : List Symbol} {bad : Symbol}
    (hcovers : before ++ bad :: rest = opened ++ ahead) (hopened : opened <+: before)
    (hline : .char '\n' ∉ before) (hbad : bad ≠ .char '\n') :
    (faulty fault before bad rest).Fits opened ahead where
  covers := by simpa [faulty] using hcovers
  opened_isPrefix := hopened.trans (List.prefix_append before [bad])
  kind_eq_error_iff := by simp [faulty]
  kind_ne_endOfFile := by simp [faulty]
  before_of_none := by simp [faulty]
  before_of_some := fun _ => ⟨bad, [], rfl⟩
  newline_notMem := fun _ => by simpa [faulty] using ⟨hline, hbad.symm⟩

/-- An immediate value fits where its symbols stand, with a digit or without. -/
theorem immediate_fits (base : Nat) (hcovers : taken ++ rest = opened ++ ahead)
    (hopened : opened <+: taken) (htaken : taken ≠ []) (hline : .char '\n' ∉ taken) :
    (immediate base taken rest).Fits opened ahead := by
  unfold immediate
  dsimp only
  split
  · exact whole_fits (by decide) hcovers hopened fun _ => hline
  · obtain ⟨s, more, rfl⟩ := List.exists_cons_of_ne_nil htaken
    exact ⟨hcovers, hopened, by simp, by simp, by simp, fun _ => ⟨s, more, rfl⟩, fun _ => hline⟩

end Piece

/-- A run of symbols that are not newlines adds none. -/
theorem newline_notMem_append_takeWhile {keep : Symbol → Bool} {opened : List Symbol}
    (hopened : .char '\n' ∉ opened) (hkeep : keep (.char '\n') = false) (ahead : List Symbol) :
    .char '\n' ∉ opened ++ ahead.takeWhile keep := by
  rw [List.mem_append, not_or]
  refine ⟨hopened, fun hmem => ?_⟩
  have := List.mem_takeWhile_imp hmem
  rw [hkeep] at this
  cases this

/-- What a run takes and what stops it are all that was ahead. -/
theorem append_span {keep : Symbol → Bool} {ahead after : List Symbol}
    (h : ahead.dropWhile keep = after) (opened : List Symbol) :
    opened ++ ahead.takeWhile keep ++ after = opened ++ ahead := by
  rw [← h, List.append_assoc, List.takeWhile_append_dropWhile]

section

variable {opened : List Symbol}

/-- Digits fit where they stand. -/
theorem digits_piece_fits (base : Nat) (hopened : opened ≠ []) (hline : .char '\n' ∉ opened)
    (ahead : List Symbol) : ((State.digits base).piece opened ahead).Fits opened ahead := by
  have hprefix := List.prefix_append opened (ahead.takeWhile (Symbol.satisfies (isDigitIn base)))
  have hnewline : Symbol.satisfies (isDigitIn base) (.char '\n') = false := by
    simp [Symbol.satisfies, isDigitIn]
  have htaken := newline_notMem_append_takeWhile hline hnewline ahead
  have hne := List.append_ne_nil_of_left_ne_nil hopened
    (ahead.takeWhile (Symbol.satisfies (isDigitIn base)))
  rw [State.piece]
  cases hend : ahead.dropWhile (Symbol.satisfies (isDigitIn base)) with
  | nil => exact Piece.immediate_fits base (append_span hend opened) hprefix hne htaken
  | cons s rest =>
    cases s with
    | malformed byte => exact Piece.faulty_fits (append_span hend opened) hprefix htaken (by simp)
    | char c =>
      dsimp only
      split
      · exact Piece.immediate_fits base (append_span hend opened) hprefix hne htaken
      · refine Piece.faulty_fits (append_span hend opened) hprefix htaken ?_
        rintro ⟨⟩
        exact absurd (by decide) ‹¬ isSeparator '\n'›

/-- A word fits where it stands. -/
theorem word_piece_fits {kind : Kind} (hkind : (State.word kind).Continues)
    (hline : .char '\n' ∉ opened) (ahead : List Symbol) :
    ((State.word kind).piece opened ahead).Fits opened ahead := by
  have hprefix := List.prefix_append opened (ahead.takeWhile (Symbol.satisfies isNameChar))
  have hnewline : Symbol.satisfies isNameChar (.char '\n') = false := by decide
  have htaken := newline_notMem_append_takeWhile hline hnewline ahead
  have hproper : kind ≠ .error ∧ kind ≠ .endOfFile := by
    rcases hkind with rfl | rfl | rfl <;> decide
  rw [State.piece]
  cases hend : ahead.dropWhile (Symbol.satisfies isNameChar) with
  | nil => exact Piece.whole_fits hproper (append_span hend opened) hprefix fun _ => htaken
  | cons s rest =>
    cases s with
    | malformed byte => exact Piece.faulty_fits (append_span hend opened) hprefix htaken (by simp)
    | char c => exact Piece.whole_fits hproper (append_span hend opened) hprefix fun _ => htaken

/-- What comes of a zero fits where it stands. -/
theorem afterZero_piece_fits (hopened : opened ≠ []) (hline : .char '\n' ∉ opened)
    (ahead : List Symbol) : (State.afterZero.piece opened ahead).Fits opened ahead := by
  have hwhole (rest : List Symbol) : (Piece.whole .immediate opened rest).Fits opened rest :=
    Piece.whole_fits (by decide) rfl (List.prefix_refl opened) fun _ => hline
  cases ahead with
  | nil =>
    rw [State.piece]
    exact hwhole []
  | cons s rest =>
    cases s with
    | malformed byte =>
      rw [State.piece]
      exact Piece.faulty_fits rfl (List.prefix_refl opened) hline (by simp)
    | char c =>
      -- a base marker belongs to what the digits go on from
      have hmarked (base : Nat) (hc : c ≠ '\n') :
          ((State.digits base).piece (opened ++ [.char c]) rest).Fits opened (.char c :: rest) := by
        have hfits := digits_piece_fits base (List.append_ne_nil_of_left_ne_nil hopened [.char c])
          (by simpa using ⟨hline, hc.symm⟩) rest
        refine { hfits with covers := ?_, opened_isPrefix := ?_ }
        · rw [hfits.covers, List.append_assoc, List.singleton_append]
        · exact (List.prefix_append opened _).trans hfits.opened_isPrefix
      rw [State.piece]
      split
      · rename_i hbinary
        exact hmarked 2 (by rintro rfl; simp at hbinary)
      split
      · rename_i hhex
        exact hmarked 16 (by rintro rfl; simp at hhex)
      split
      · exact hwhole _
      rename_i hseparator
      split
      · exact digits_piece_fits 8 hopened hline _
      · refine Piece.faulty_fits rfl (List.prefix_refl opened) hline ?_
        rintro ⟨⟩
        exact hseparator (by decide)

/-- Every state in which a token goes on fits its piece where it stands. -/
theorem State.Continues.piece_fits {state : State} (hstate : state.Continues)
    (hopened : opened ≠ []) (hline : .char '\n' ∉ opened) (ahead : List Symbol) :
    (state.piece opened ahead).Fits opened ahead := by
  cases state with
  | any => exact hstate.elim
  | skipLine => exact hstate.elim
  | afterZero => exact afterZero_piece_fits hopened hline ahead
  | digits base => exact digits_piece_fits base hopened hline ahead
  | word kind => exact word_piece_fits hstate hline ahead
  | space =>
    rw [State.piece]
    exact Piece.whole_fits (by decide) (append_span rfl opened) (List.prefix_append opened _)
      fun _ => newline_notMem_append_takeWhile hline (by decide) ahead
  | comment =>
    rw [State.piece]
    exact Piece.whole_fits (by decide) (append_span rfl opened) (List.prefix_append opened _)
      fun _ => newline_notMem_append_takeWhile hline (by decide) ahead

end

/-- Behind the last symbol stands the end of the source. -/
theorem nextPiece_nil : nextPiece [] = .whole .endOfFile [] [] := by
  rw [nextPiece, State.piece]

/-- A newline is a token by itself. -/
theorem nextPiece_newline (ahead : List Symbol) :
    nextPiece (.char '\n' :: ahead) = .whole .endOfLine [.char '\n'] ahead := by
  rw [nextPiece, State.piece]
  rfl

/-- Punctuation is no error and no end, and only the newline ends a line. -/
theorem punctuation_kind {c : Char} {kind : Kind} (h : punctuation? c = some kind) :
    (kind ≠ .error ∧ kind ≠ .endOfFile) ∧ (c = '\n' ↔ kind = .endOfLine) := by
  unfold punctuation? at h
  split at h
  all_goals cases h
  all_goals simp

/-- Every piece but the last takes a symbol. -/
theorem nextPiece_fits {symbols : List Symbol} (h : symbols ≠ []) :
    (nextPiece symbols).Fits [] symbols ∧ (nextPiece symbols).taken ≠ [] := by
  obtain ⟨s, rest, rfl⟩ := List.exists_cons_of_ne_nil h
  rw [nextPiece]
  cases s with
  | malformed byte =>
    rw [State.piece]
    exact ⟨Piece.faulty_fits rfl List.nil_prefix List.not_mem_nil (by simp), by simp [Piece.faulty]⟩
  | char c =>
    rw [State.piece]
    cases hkind : punctuation? c with
    | some kind =>
      obtain ⟨hproper, hnewline⟩ := punctuation_kind hkind
      refine ⟨Piece.whole_fits hproper rfl List.nil_prefix fun hne => ?_, by simp [Piece.whole]⟩
      rw [List.nil_append, List.mem_singleton, Symbol.char.injEq]
      exact fun hc => hne (hnewline.mp hc.symm)
    | none =>
      have hc : c ≠ '\n' := by
        rintro rfl
        cases hkind
      cases hopening : opening? c with
      | some state =>
        have hfits := (continues_of_opening hopening).piece_fits (List.cons_ne_nil (.char c) [])
          (by simpa using hc.symm) rest
        refine ⟨{ hfits with covers := hfits.covers, opened_isPrefix := List.nil_prefix }, ?_⟩
        obtain ⟨more, hmore⟩ := hfits.opened_isPrefix
        rw [List.nil_append, ← hmore]
        exact List.cons_ne_nil _ _
      | none =>
        exact ⟨Piece.faulty_fits rfl List.nil_prefix List.not_mem_nil (by simpa using hc),
          by simp [Piece.faulty]⟩

end AsmLexer

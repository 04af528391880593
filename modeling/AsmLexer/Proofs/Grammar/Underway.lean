import AsmLexer.Proofs.Scanner.Stops
import AsmLexer.Proofs.Utf8.Lossy

/-!
# Numbers under way

While the scanner reads a number, what it has read is the beginning of some immediate value, and its
state remembers which digits may follow (`Underway`). One more character keeps the number under way,
or it separates, or it is refused there (`Underway.next`). A refused character continues no
immediate value, so a number is under way as long as its characters are the beginning of one, and
the scanner stops behind the longest such beginning (`Underway.longestBegun`).
-/

set_option autoImplicit false

namespace AsmLexer

/-! ## Beginnings of immediate values -/

/-- A text with which some immediate value begins. -/
def BeginsNumeral (u : List Char) : Prop :=
  ∃ more, Numeral (u ++ more)

/-- The longest beginning of a text with which some immediate value begins. -/
structure LongestBegun (u w : List Char) : Prop where
  isPrefix : u <+: w
  begins : BeginsNumeral u
  longest : ∀ v, v <+: w → BeginsNumeral v → v <+: u

/-- The base markers with no digit behind them. -/
def bareMarkers : List (List Char) :=
  [['0', 'b'], ['0', 'B'], ['0', 'x'], ['0', 'X']]

/-- The base of the digits of a number that begins like this and goes on with this character. -/
def baseAt (u : List Char) (c : Char) : Nat :=
  if ['0', 'b'] <+: u ∨ ['0', 'B'] <+: u then 2
  else if ['0', 'x'] <+: u ∨ ['0', 'X'] <+: u then 16
  else match u ++ [c] with
    | '0' :: d :: _ => if '0' ≤ d ∧ d ≤ '9' then 8 else 10
    | _ => 10

/-- What is wrong with a character if no number goes on with it that begins like this. -/
def faultAt (u : List Char) (c : Char) : Fault :=
  if u = ['0'] ∧ ¬ ('0' ≤ c ∧ c ≤ '9') then .illegalAfterZero c else .illegalDigit c (baseAt u c)

/-- An immediate value with nothing behind it is a piece. -/
theorem Numeral.nextPiece_map {cs : List Char} (h : Numeral cs) :
    nextPiece (cs.map .char) = .whole .immediate (cs.map .char) [] := by
  have hpiece := h.nextPiece_eq (.inl rfl)
  rwa [List.append_nil, Utf8.symbols_encode, Utf8.symbols_nil] at hpiece

/-- A beginning of the beginning of a number is one, too. -/
theorem BeginsNumeral.of_prefix {u v : List Char} (h : BeginsNumeral v) (huv : u <+: v) :
    BeginsNumeral u := by
  obtain ⟨more, hnumeral⟩ := h
  obtain ⟨rest, rfl⟩ := huv
  rw [List.append_assoc] at hnumeral
  exact ⟨rest ++ more, hnumeral⟩

/-- A beginning is the longest one if it cannot go on with the next character. -/
theorem longestBegun_append {u v : List Char} (hbegins : BeginsNumeral u)
    (hstops : ∀ c ∈ v.head?, ¬ BeginsNumeral (u ++ [c])) : LongestBegun u (u ++ v) := by
  refine ⟨List.prefix_append u v, hbegins, fun w hw hbegins' => ?_⟩
  rcases List.prefix_or_prefix_of_prefix hw (List.prefix_append u v) with hshorter | hlonger
  · exact hshorter
  · obtain ⟨more, rfl⟩ := hlonger
    cases more with
    | nil => simp
    | cons c more =>
      obtain ⟨rest, rfl⟩ := (List.prefix_append_right_inj u).mp hw
      have hprefix : u ++ [c] <+: u ++ c :: more :=
        (List.prefix_append_right_inj u).mpr ⟨more, rfl⟩
      exact absurd (hbegins'.of_prefix hprefix) (hstops c rfl)

/-- An immediate value ends at the end or before a character that separates. -/
theorem immediate_allows_iff {text : List UInt8} : Kind.immediate.Allows text ↔
    ∀ s ∈ (Utf8.symbols text).head?, s.satisfies isSeparator = true := by
  rw [Kind.Allows, beginsWith_iff, ← Utf8.symbols_eq_nil_iff]
  cases Utf8.symbols text with
  | nil => simp
  | cons s more => cases s <;> simp [Symbol.satisfies]

/-! ## What the scanner remembers -/

/-- What has been read of a number that goes on with digits of this base. -/
inductive Digits : Nat → List Char → Prop where
  | decimal {c : Char} : '1' ≤ c ∧ c ≤ '9' → Digits 10 [c]
  | octal {c : Char} : isDigitIn 8 c → Digits 8 ['0', c]
  | binary {mark : Char} : mark = 'b' ∨ mark = 'B' → Digits 2 ['0', mark]
  | hexadecimal {mark : Char} : mark = 'x' ∨ mark = 'X' → Digits 16 ['0', mark]
  | more {base : Nat} {u : List Char} {c : Char} : Digits base u → isDigitIn base c →
      Digits base (u ++ [c])

/-- What has been read of a number in each state. -/
inductive Underway : State → List Char → Prop where
  | zero : Underway .afterZero ['0']
  | digits {base : Nat} {u : List Char} : Digits base u → Underway (.digits base) u

section

variable {base : Nat} {u : List Char}

/-- Zero is a digit of every base in use. -/
theorem Digits.zero_isDigitIn (h : Digits base u) : isDigitIn base '0' := by
  induction h with
  | decimal => decide
  | octal => decide
  | binary => decide
  | hexadecimal => decide
  | more _ _ ih => exact ih

/-- The base of the digits is known from the first two characters on. -/
theorem Digits.baseAt_append (h : Digits base u) (v : List Char) (c : Char) :
    baseAt (u ++ v) c = base := by
  induction h generalizing v with
  | @decimal d hd =>
    have hzero : '0' ≠ d := by
      rintro rfl
      exact absurd hd (by decide)
    simp [baseAt, List.cons_prefix_cons, hzero, hzero.symm]
  | @octal d hd =>
    have hoctal := isDigitIn_eight_iff.mp hd
    have hdigit : '0' ≤ d ∧ d ≤ '9' := ⟨hoctal.1, Char.le_trans hoctal.2 (by decide)⟩
    have hmark (mark : Char) (hhigh : ¬ mark ≤ '9') : mark ≠ d := by
      rintro rfl
      exact hhigh hdigit.2
    have hbinary := And.intro (hmark 'b' (by decide)) (hmark 'B' (by decide))
    have hhex := And.intro (hmark 'x' (by decide)) (hmark 'X' (by decide))
    simp [baseAt, List.cons_prefix_cons, hdigit, hbinary, hhex]
  | binary hmark => rcases hmark with rfl | rfl <;> simp [baseAt, List.cons_prefix_cons]
  | hexadecimal hmark => rcases hmark with rfl | rfl <;> simp [baseAt, List.cons_prefix_cons]
  | @more _ u d _ _ ih =>
    rw [List.append_assoc]
    exact ih ([d] ++ v)

/-- Something was read of a number that is underway. -/
theorem Digits.ne_nil (h : Digits base u) : u ≠ [] := by
  cases h <;> simp

/-- A number that goes on with digits is more than a zero. -/
theorem Digits.ne_zero (h : Digits base u) : u ≠ ['0'] := by
  cases h with
  | decimal hd =>
    rintro ⟨⟩
    exact absurd hd (by decide)
  | octal => simp
  | binary => simp
  | hexadecimal => simp
  | more h => simp [List.append_eq_singleton_iff, h.ne_nil]

/-- The fault at a character is about the base of the digits. -/
theorem Digits.faultAt_eq (h : Digits base u) (c : Char) : faultAt u c = .illegalDigit c base := by
  have hbase := h.baseAt_append [] c
  rw [List.append_nil] at hbase
  rw [faultAt, if_neg fun hzero => h.ne_zero hzero.1, hbase]

/-- With digits behind it, what has been read is an immediate value. -/
theorem Digits.numeral_append (h : Digits base u) {cs : List Char} (hne : cs ≠ [])
    (hcs : ∀ c ∈ cs, isDigitIn base c) : Numeral (u ++ cs) := by
  induction h generalizing cs with
  | decimal hd => exact .decimal hd fun c hc => isDigitIn_ten_iff.mp (hcs c hc)
  | @octal d hd =>
    have hall : ∀ c ∈ d :: cs, isDigitIn 8 c := List.forall_mem_cons.mpr ⟨hd, hcs⟩
    exact .octal (List.cons_ne_nil d cs) fun c hc => isDigitIn_eight_iff.mp (hall c hc)
  | binary hmark => exact .binary hmark hne fun c hc => isDigitIn_two_iff.mp (hcs c hc)
  | hexadecimal hmark =>
    exact .hexadecimal hmark hne fun c hc => isDigitIn_sixteen_iff.mp (hcs c hc)
  | @more _ u d _ hd ih =>
    rw [List.append_assoc]
    exact ih (List.cons_ne_nil d cs) (List.forall_mem_cons.mpr ⟨hd, hcs⟩)

/-- Behind the beginning of a number the state for its digits takes the rest. -/
theorem Digits.nextPiece_eq (h : Digits base u) (ahead : List Symbol) :
    nextPiece (u.map .char ++ ahead) = (State.digits base).piece (u.map .char) ahead := by
  induction h generalizing ahead with
  | decimal hd => exact nextPiece_of_opens (.digit hd) ahead
  | octal hd => exact (nextPiece_of_opens .zero _).trans (afterZero_piece_octal hd)
  | binary hmark => exact (nextPiece_of_opens .zero _).trans (afterZero_piece_binary hmark)
  | hexadecimal hmark =>
    exact (nextPiece_of_opens .zero _).trans (afterZero_piece_hexadecimal hmark)
  | @more base u c _ hc ih =>
    have hrun : ∀ s ∈ [Symbol.char c], (State.digits base).keeps s = true := by
      rw [List.forall_mem_singleton]
      exact hc
    rw [List.map_append, List.append_assoc, ih]
    exact (State.digits base).piece_append hrun _ ahead

end

section

variable {state : State} {u : List Char}

/-- Behind the beginning of a number the state that remembers it takes the rest. -/
theorem Underway.nextPiece_eq (h : Underway state u) (ahead : List Symbol) :
    nextPiece (u.map .char ++ ahead) = state.piece (u.map .char) ahead := by
  cases h with
  | zero => exact nextPiece_of_opens .zero ahead
  | digits h => exact h.nextPiece_eq ahead

/-- A number under way ends in a fault at a malformed byte. -/
theorem Underway.nextPiece_malformed (h : Underway state u) (byte : UInt8) (rest : List Symbol) :
    nextPiece (u.map .char ++ .malformed byte :: rest) =
      .faulty (.invalidByte byte) (u.map .char) (.malformed byte) rest := by
  rw [h.nextPiece_eq]
  cases h with
  | zero => exact afterZero_piece_malformed byte
  | @digits base => exact digits_piece_malformed base byte

/-- What is under way is the beginning of an immediate value. -/
theorem Underway.begins (h : Underway state u) : BeginsNumeral u := by
  cases h with
  | zero => exact ⟨[], .zero⟩
  | digits h =>
    refine ⟨['0'], h.numeral_append (List.cons_ne_nil _ _) ?_⟩
    rw [List.forall_mem_singleton]
    exact h.zero_isDigitIn

/-- What is under way is an immediate value by itself unless it has a base marker and no digits. -/
theorem Underway.numeral_or_bareMarker (h : Underway state u) : Numeral u ∨ u ∈ bareMarkers := by
  cases h with
  | zero => exact .inl .zero
  | digits h =>
    cases h with
    | decimal hd => exact .inl (.decimal hd (List.forall_mem_nil _))
    | octal hd =>
      have hall : ∀ c ∈ [_], isDigitIn 8 c := List.forall_mem_singleton.mpr hd
      exact .inl (.octal (List.cons_ne_nil _ _) fun c hc => isDigitIn_eight_iff.mp (hall c hc))
    | binary hmark =>
      right
      rcases hmark with rfl | rfl <;> simp [bareMarkers]
    | hexadecimal hmark =>
      right
      rcases hmark with rfl | rfl <;> simp [bareMarkers]
    | more h hc =>
      exact .inl (h.numeral_append (List.cons_ne_nil _ _) (List.forall_mem_singleton.mpr hc))

end

/-! ## Base markers -/

/-- Where no digit is behind a base marker, the number is malformed. -/
theorem immediate_eq_malformed {base : Nat} {cs : List Char} (rest : List Symbol)
    (h : ¬ (base = 8 ∨ base = 10 ∨ 2 < (Utf8.encode cs).length)) :
    Piece.immediate base (cs.map .char) rest =
      ⟨.error, some (.malformedImmediate (String.ofList cs)), [], cs.map .char, rest⟩ := by
  unfold Piece.immediate
  rw [Utf8.bytes_map_char]
  dsimp only
  rw [if_neg h, Utf8.decodeLossy_encode]

/-- A base marker waits for digits of its base. -/
theorem exists_base_of_bareMarker {w : List Char} (hmarker : w ∈ bareMarkers) :
    ∃ base, Digits base w ∧ ¬ (base = 8 ∨ base = 10 ∨ 2 < (Utf8.encode w).length) := by
  simp only [bareMarkers, List.mem_cons, List.not_mem_nil, or_false] at hmarker
  rcases hmarker with rfl | rfl | rfl | rfl
  · exact ⟨2, .binary (.inl rfl), by decide⟩
  · exact ⟨2, .binary (.inr rfl), by decide⟩
  · exact ⟨16, .hexadecimal (.inl rfl), by decide⟩
  · exact ⟨16, .hexadecimal (.inr rfl), by decide⟩

/-- Unless a number has enough digits, it is a base marker with none. -/
theorem Digits.mem_bareMarkers {base : Nat} {u : List Char} (h : Digits base u)
    (hshort : ¬ (base = 8 ∨ base = 10 ∨ 2 < (Utf8.encode u).length)) : u ∈ bareMarkers := by
  have hlong {base : Nat} {u : List Char} (h : Digits base u) :
      base = 8 ∨ base = 10 ∨ 2 ≤ u.length := by
    induction h with
    | decimal => simp
    | octal => simp
    | binary => simp
    | hexadecimal => simp
    | more _ _ ih =>
      rw [List.length_append]
      omega
  cases h with
  | decimal => simp at hshort
  | octal => simp at hshort
  | binary hmark => rcases hmark with rfl | rfl <;> simp [bareMarkers]
  | hexadecimal hmark => rcases hmark with rfl | rfl <;> simp [bareMarkers]
  | @more _ u c h =>
    have hlength := length_le_length_encode (u ++ [c])
    rw [List.length_append, List.length_singleton] at hlength
    have := hlong h
    omega

/-! ## Where a number stops -/

/-- Whether the scanner refuses a character behind the beginning of a number, whatever comes behind
that character. -/
def RefusedAt (u : List Char) (c : Char) : Prop :=
  ∀ rest, nextPiece (u.map .char ++ .char c :: rest) =
    .faulty (faultAt u c) (u.map .char) (.char c) rest

/-- No immediate value goes on with a character that is refused. -/
theorem RefusedAt.not_begins {u : List Char} {c : Char} (h : RefusedAt u c) :
    ¬ BeginsNumeral (u ++ [c]) := by
  rintro ⟨more, hnumeral⟩
  have hpiece := hnumeral.nextPiece_map
  rw [List.append_assoc, List.map_append] at hpiece
  have hrefused := h (more.map .char)
  rw [show Symbol.char c :: more.map .char = ([c] ++ more).map .char from rfl, hpiece] at hrefused
  exact fault_faulty_ne_none (congrArg Piece.fault hrefused).symm

/-- One more character keeps a number under way or is refused, if it does not separate. -/
theorem Underway.next {state : State} {u : List Char} (h : Underway state u) {c : Char}
    (hc : ¬ isSeparator c) : (∃ state', Underway state' (u ++ [c])) ∨ RefusedAt u c := by
  have hrefused (hpiece : ∀ rest, state.piece (u.map .char) (.char c :: rest) =
      .faulty (faultAt u c) (u.map .char) (.char c) rest) : RefusedAt u c := by
    intro rest
    rw [h.nextPiece_eq]
    exact hpiece rest
  cases h with
  | zero =>
    by_cases hbinary : c = 'b' ∨ c = 'B'
    · exact .inl ⟨_, .digits (.binary hbinary)⟩
    by_cases hhex : c = 'x' ∨ c = 'X'
    · exact .inl ⟨_, .digits (.hexadecimal hhex)⟩
    by_cases hdigit : '0' ≤ c ∧ c ≤ '9'
    · by_cases hoctal : isDigitIn 8 c = true
      · exact .inl ⟨_, .digits (.octal hoctal)⟩
      · have hfault : faultAt ['0'] c = .illegalDigit c 8 := by
          simp [faultAt, baseAt, hdigit, List.cons_prefix_cons]
        rw [hfault] at hrefused
        exact .inr (hrefused fun rest => afterZero_piece_decimal hdigit.1 hdigit.2 hoctal)
    · have hfault : faultAt ['0'] c = .illegalAfterZero c := if_pos ⟨rfl, hdigit⟩
      rw [hfault] at hrefused
      exact .inr (hrefused fun rest => afterZero_piece_illegal hbinary hhex hc hdigit)
  | @digits base u h =>
    by_cases hdigit : isDigitIn base c = true
    · exact .inl ⟨_, .digits (.more h hdigit)⟩
    · rw [h.faultAt_eq] at hrefused
      exact .inr (hrefused fun rest => digits_piece_illegal hdigit hc)

/-- A number that is under way stays so up to a character that is refused, if none separates. -/
theorem Underway.exists_stop {state : State} {u : List Char} (h : Underway state u) {w : List Char}
    (hw : ∀ c ∈ w, ¬ isSeparator c) :
    ∃ state' u' v, u ++ w = u' ++ v ∧ Underway state' u' ∧ ∀ c ∈ v.head?, RefusedAt u' c := by
  induction w generalizing state u with
  | nil => exact ⟨state, u, [], rfl, h, fun c hc => nomatch hc⟩
  | cons c w ih =>
    rw [List.forall_mem_cons] at hw
    rcases h.next hw.1 with ⟨state', hnext⟩ | hrefused
    · rw [← List.singleton_append, ← List.append_assoc]
      exact ih hnext hw.2
    · refine ⟨state, u, c :: w, rfl, h, ?_⟩
      rintro _ ⟨⟩
      exact hrefused

/-- What is under way up to a character that is refused is the longest beginning. -/
theorem Underway.longestBegun {state : State} {u v : List Char} (h : Underway state u)
    (hstops : ∀ c ∈ v.head?, RefusedAt u c) : LongestBegun u (u ++ v) :=
  longestBegun_append h.begins fun c hc => (hstops c hc).not_begins

end AsmLexer

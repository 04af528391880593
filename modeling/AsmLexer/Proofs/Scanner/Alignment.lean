import AsmLexer.Proofs.Scanner.Course
import AsmLexer.Proofs.Scanner.Moves

/-!
# Where the places of a scanner stand

Between two requests the next place of a scanner is not always behind the start of its token. A
caller can undo the reading that ended a token, and then the scanner reads one symbol again that
belongs to no token any more. `Scanner.Aligned` lists the five situations there are. Every move of a
scanner leads from one of them to another (`Scanner.aligned_closed`), so in particular at most one
symbol is read again.

From an aligned scanner the machine meets no mishap (`Scanner.Aligned.no_mishap_pullCourse`): it
undoes only what it has just read, and a value of two bytes or less that it complains about is text.
-/

set_option autoImplicit false

namespace AsmLexer.Scanner

/-- The situations of a scanner between two moves. -/
inductive Aligned (sc : Scanner) : Prop where
  /-- There is no reading to undo. -/
  | settled {pos : Position} {taken ahead : List Symbol} :
    sc.Stands pos taken ahead → sc.checkpoint = none → Aligned sc
  /-- The last reading found the end of the source. -/
  | ended {pos : Position} {taken : List Symbol} :
    sc.Stands pos taken [] → sc.checkpoint = some sc.next → Aligned sc
  /-- The last reading took a symbol of the token. -/
  | taken {pos : Position} {taken ahead : List Symbol} {s : Symbol} :
    sc.Stands pos (taken ++ [s]) ahead →
    sc.checkpoint = some ⟨pos.afterAll taken, s :: ahead⟩ → Aligned sc
  /-- The last reading took a symbol in front of the token. -/
  | behind {pos : Position} {ahead : List Symbol} {s : Symbol} :
    sc.Stands (pos.after s) [] ahead → sc.checkpoint = some ⟨pos, s :: ahead⟩ → Aligned sc
  /-- That reading was undone, so the token starts behind the symbol to be read next. -/
  | undone {pos : Position} {ahead : List Symbol} {s : Symbol} :
    sc.start = ⟨pos.after s, ahead⟩ → sc.next = ⟨pos, s :: ahead⟩ → sc.checkpoint = none →
    Aligned sc

/-- Before its first token a scanner has nothing to undo. -/
theorem aligned_ofSource (source : List UInt8) : (ofSource source).Aligned := by
  have hstands : (ofSource source).Stands .origin [] (Utf8.symbols source) := ⟨rfl, rfl⟩
  exact .settled hstands rfl

section

variable {sc : Scanner} {pos : Position} {taken ahead : List Symbol}

/-- At the end of the source a reading finds nothing and can be undone. -/
theorem read_of_nil (h : sc.next.rest = []) :
    sc.read = (none, { sc with checkpoint := some sc.next }) := by
  simp only [read, h]

/-- A reading takes the next symbol and can be undone. -/
theorem read_of_cons {s : Symbol} (h : sc.next.rest = s :: ahead) :
    sc.read = (some s,
      { sc with next := ⟨sc.next.pos.after s, ahead⟩, checkpoint := some sc.next }) := by
  simp only [read, h]

/-! ## Moves -/

/-- A reading of a scanner that stands somewhere leaves it aligned. -/
theorem Stands.aligned_read (h : sc.Stands pos taken ahead) : sc.read.2.Aligned := by
  cases ahead with
  | nil =>
    rw [read_of_nil (by rw [h.next])]
    exact .ended ⟨h.start, h.next⟩ rfl
  | cons s rest =>
    rw [read_of_cons (by rw [h.next])]
    have hstands : ({ sc with
        next := ⟨sc.next.pos.after s, rest⟩, checkpoint := some sc.next } : Scanner).Stands pos
          (taken ++ [s]) rest := by
      refine ⟨?_, ?_⟩
      · rw [h.start, List.append_assoc]
        rfl
      · rw [h.next, Position.afterAll_append]
        rfl
    exact .taken hstands (by rw [h.next])

/-- Readings keep a scanner aligned. -/
theorem Aligned.read (h : sc.Aligned) : sc.read.2.Aligned := by
  cases h with
  | settled hstands => exact hstands.aligned_read
  | ended hstands => exact hstands.aligned_read
  | taken hstands => exact hstands.aligned_read
  | behind hstands => exact hstands.aligned_read
  | undone hstart hnext =>
    rw [read_of_cons (by rw [hnext])]
    refine .behind ⟨hstart, ?_⟩ ?_
    · rw [hnext]
      rfl
    · rw [hnext]

/-- An undo keeps a scanner aligned. -/
theorem Aligned.undo (h : sc.Aligned) : sc.undo.Aligned := by
  cases h with
  | settled hstands hcheckpoint =>
    have hnext : sc.undo.next = sc.next := by rw [Scanner.undo, prev, hcheckpoint]; rfl
    exact .settled ⟨hstands.start, hnext.trans hstands.next⟩ rfl
  | ended hstands hcheckpoint =>
    have hnext : sc.undo.next = sc.next := by rw [Scanner.undo, prev, hcheckpoint]; rfl
    exact .settled ⟨hstands.start, hnext.trans hstands.next⟩ rfl
  | @taken pos taken ahead s hstands hcheckpoint =>
    have hnext : sc.undo.next = ⟨pos.afterAll taken, s :: ahead⟩ := by
      rw [Scanner.undo, prev, hcheckpoint]
      rfl
    have hstart : sc.start = ⟨pos, taken ++ s :: ahead⟩ := by
      rw [hstands.start, List.append_assoc]
      rfl
    exact .settled ⟨hstart, hnext⟩ rfl
  | @behind pos ahead s hstands hcheckpoint =>
    have hnext : sc.undo.next = ⟨pos, s :: ahead⟩ := by
      rw [Scanner.undo, prev, hcheckpoint]
      rfl
    exact .undone hstands.start hnext rfl
  | undone hstart hnext hcheckpoint =>
    have hkept : sc.undo.next = sc.next := by rw [Scanner.undo, prev, hcheckpoint]; rfl
    exact .undone hstart (hkept.trans hnext) rfl

/-- Setting the start of the token where the scanner reads next keeps it aligned. -/
theorem Aligned.settle (h : sc.Aligned) (recovering : Bool) :
    ({ sc with start := sc.next, recovering } : Scanner).Aligned := by
  have hsettled : ({ sc with start := sc.next, recovering } : Scanner).Stands sc.next.pos []
      sc.next.rest := ⟨rfl, rfl⟩
  cases h with
  | settled _ hcheckpoint => exact .settled hsettled hcheckpoint
  | ended hstands hcheckpoint =>
    have hend : sc.next.rest = [] := by rw [hstands.next]
    rw [hend] at hsettled
    exact .ended hsettled hcheckpoint
  | @taken pos taken ahead s hstands hcheckpoint =>
    have hnext : sc.next = ⟨(pos.afterAll taken).after s, ahead⟩ := by
      rw [hstands.next, Position.afterAll_append]
      rfl
    exact .behind ⟨hnext, hnext⟩ hcheckpoint
  | behind hstands hcheckpoint => exact .behind ⟨hstands.next, hstands.next⟩ hcheckpoint
  | undone _ _ hcheckpoint => exact .settled hsettled hcheckpoint

/-- Every move leads from one situation to another. -/
theorem aligned_closed : Closed Aligned where
  read := Aligned.read
  undo := Aligned.undo
  settle recovering h := h.settle recovering

/-- The last reading was made in front of the symbols that are next. -/
theorem Aligned.prev_le (h : sc.Aligned) : sc.prev.pos.offset ≤ sc.next.pos.offset := by
  unfold prev
  cases h with
  | settled _ hcheckpoint => rw [hcheckpoint]; exact Int.le_refl _
  | ended _ hcheckpoint => rw [hcheckpoint]; exact Int.le_refl _
  | taken hstands hcheckpoint =>
    rw [hcheckpoint, hstands.next]
    simp only [Option.getD_some, Position.offset_afterAll, List.flatMap_append, List.length_append]
    omega
  | behind hstands hcheckpoint =>
    rw [hcheckpoint, hstands.next]
    simp only [Option.getD_some, Position.afterAll_nil, Position.offset_after]
    omega
  | undone _ _ hcheckpoint => rw [hcheckpoint]; exact Int.le_refl _

/-- The next place is not in front of the start by more than one symbol. -/
theorem Aligned.start_le (h : sc.Aligned) :
    sc.start.pos.offset ≤ sc.next.pos.offset ∨
      ∃ s, sc.next.rest.head? = some s ∧ sc.start.pos.offset = sc.next.pos.offset + s.size := by
  have hstands : ∀ {pos : Position} {taken ahead : List Symbol}, sc.Stands pos taken ahead →
      sc.start.pos.offset ≤ sc.next.pos.offset := by
    intro pos taken ahead hstands
    rw [hstands.start, hstands.next]
    simp only [Position.offset_afterAll]
    omega
  cases h with
  | settled h => exact .inl (hstands h)
  | ended h => exact .inl (hstands h)
  | taken h => exact .inl (hstands h)
  | behind h => exact .inl (hstands h)
  | @undone pos ahead s hstart hnext =>
    refine .inr ⟨s, ?_, ?_⟩
    · rw [hnext]
      rfl
    · rw [hstart, hnext]
      exact Position.offset_after pos s

end

/-! ## Values that are shown -/

/-- Symbols that are text, or of more bytes than are shown in a message. -/
def Presentable (shown : Nat) (taken : List Symbol) : Prop :=
  (∃ cs : List Char, taken = cs.map .char) ∨ shown < (taken.flatMap Symbol.bytes).length

section

variable {shown : Nat} {taken : List Symbol}

/-- Symbols that are no text have a byte at least. -/
theorem presentable_zero (taken : List Symbol) : Presentable 0 taken := by
  cases taken with
  | nil => exact .inl ⟨[], rfl⟩
  | cons s taken =>
    have hpos := s.size_pos
    right
    rw [List.flatMap_cons, List.length_append, s.length_bytes]
    omega

/-- One more character can be shown, and it is one more byte at least. -/
theorem Presentable.concat (h : Presentable shown taken) (c : Char) :
    Presentable (shown + 1) (taken ++ [.char c]) := by
  rcases h with ⟨cs, rfl⟩ | hlong
  · exact .inl ⟨cs ++ [c], by rw [List.map_append]; rfl⟩
  · have hpos := (Symbol.char c).size_pos
    right
    rw [List.flatMap_append, List.length_append, List.flatMap_singleton, Symbol.length_bytes]
    omega

/-- What is longer than some number of bytes is longer than fewer. -/
theorem Presentable.mono {fewer : Nat} (h : Presentable shown taken) (hle : fewer ≤ shown) :
    Presentable fewer taken :=
  h.imp_right (Nat.lt_of_le_of_lt hle)

/-- Encoded text is well-formed. -/
theorem decode?_encode (cs : List Char) : Utf8.decode? (Utf8.encode cs) = some cs := by
  rw [Utf8.decode?, Utf8.symbols_encode]
  induction cs with
  | nil => rfl
  | cons c cs ih => rw [List.map_cons, List.mapM_cons, ih]; rfl

end

/-- A scanner that has taken nothing in its token but what can be shown. -/
def Shows (sc : Scanner) (shown : Nat) : Prop :=
  ∃ pos taken ahead, sc.Stands pos taken ahead ∧ Presentable shown taken

section

variable {sc : Scanner} {shown : Nat}

/-- The bytes of a token are too many to be shown or well-formed. -/
theorem Shows.raw (h : sc.Shows shown) :
    shown < sc.raw.length ∨ (Utf8.decode? sc.raw).isSome := by
  obtain ⟨pos, taken, ahead, hstands, ⟨cs, rfl⟩ | hlong⟩ := h
  · right
    rw [hstands.raw, Utf8.bytes_map_char, decode?_encode]
    rfl
  · left
    rwa [hstands.raw]

/-- A character that is read can be shown with the rest of its token. -/
theorem Shows.read_char {c : Char} (h : sc.Shows shown) (hread : sc.read.1 = some (.char c)) :
    sc.read.2.Shows (shown + 1) := by
  obtain ⟨pos, taken, ahead, hstands, hpresentable⟩ := h
  cases ahead with
  | nil =>
    obtain ⟨sc', hnone, -⟩ := hstands.read_nil
    rw [hnone] at hread
    cases hread
  | cons s rest =>
    obtain ⟨sc', hsome, hstands', -⟩ := hstands.read_cons
    rw [hsome] at hread ⊢
    cases hread
    exact ⟨pos, _, rest, hstands', hpresentable.concat c⟩

/-- Neither the end of the source nor a symbol that is put back adds to a token. -/
theorem Shows.read_ruled {ruling : Ruling} (h : sc.Shows shown)
    (hkept : sc.read.1 = none ∨ ruling.putsBack = true) :
    (sc.read.2.ruled ruling).Shows shown := by
  obtain ⟨pos, taken, ahead, hstands, hpresentable⟩ := h
  refine ⟨pos, taken, ahead, ?_, hpresentable⟩
  unfold ruled
  cases ahead with
  | nil =>
    rw [read_of_nil (by rw [hstands.next])]
    split
    · exact ⟨hstands.start, hstands.next⟩
    · exact ⟨hstands.start, hstands.next⟩
  | cons s rest =>
    obtain ⟨sc', hsome, -, hundo, -⟩ := hstands.read_cons
    rw [hsome] at hkept ⊢
    rw [if_pos (hkept.resolve_left (by simp))]
    exact hundo

/-- The first character of a token can be shown, even if what the scanner took before is ill-formed
or does not belong to the token. -/
theorem Aligned.shows_read_char {c : Char} (h : sc.Aligned) (hread : sc.read.1 = some (.char c)) :
    sc.read.2.Shows 1 := by
  have hstands : ∀ {pos : Position} {taken ahead : List Symbol}, sc.Stands pos taken ahead →
      sc.read.2.Shows 1 := fun {pos taken ahead} hstands =>
    Shows.read_char ⟨pos, taken, ahead, hstands, presentable_zero taken⟩ hread
  cases h with
  | settled h => exact hstands h
  | ended h => exact hstands h
  | taken h => exact hstands h
  | behind h => exact hstands h
  | @undone pos ahead s hstart hnext =>
    rw [read_of_cons (by rw [hnext])]
    refine ⟨pos.after s, [], ahead, ⟨hstart, ?_⟩, .inl ⟨[], rfl⟩⟩
    rw [hnext]
    rfl

end

/-! ## No mishaps -/

/-- What a state needs to know of what its scanner has taken. -/
def Ready (sc : Scanner) : State → Prop
  | .afterZero => sc.Shows 1
  | .digits base => base = 8 ∨ base = 10 ∨ sc.Shows 2
  | _ => True

section

variable {state : State} {symbol : Option Symbol}

/-- Only the state of digits ends an immediate value with a base, and never with a symbol more. -/
theorem of_verdict_immediate {base : Nat} (h : (state.ruling symbol).verdict = .immediate base) :
    state = .digits base ∧ (symbol = none ∨ (state.ruling symbol).putsBack = true) := by
  revert h
  fun_cases State.ruling state symbol <;> simp_all

/-- A state that takes digits after a base marker is entered behind that marker. -/
theorem of_verdict_goto {state' : State} (h : (state.ruling symbol).verdict = .goto state') :
    (∃ c, symbol = some (.char c) ∧ (state.ruling symbol).putsBack = false ∧
      (state = .any ∧ opening? c = some state' ∨
        state = .afterZero ∧ (state' = .digits 2 ∨ state' = .digits 16))) ∨
      state' = .digits 8 := by
  revert h
  fun_cases State.ruling state symbol <;> simp_all

/-- Of the states that need to know what was taken, only that of digits goes on, behind a
character. -/
theorem of_verdict_again (h : (state.ruling symbol).verdict = .again) :
    state ≠ .afterZero ∧ ∀ base, state = .digits base →
      (∃ c, symbol = some (.char c)) ∧ (state.ruling symbol).putsBack = false := by
  revert h
  fun_cases State.ruling state symbol <;> simp_all

end

section

variable {state : State} {sc sc' : Scanner}

/-- A reading can always be undone. -/
theorem undoEvent_read (sc : Scanner) : sc.read.2.undoEvent = .undo := by
  unfold undoEvent read
  split <;> rfl

/-- A state that is ready meets no mishap in its next pass. -/
theorem Ready.no_mishap (h : sc.Ready state) (m : Mishap) : .mishap m ∉ sc.passEvents state := by
  rw [passEvents_eq, rulingEvents, undoEvent_read]
  intro hmem
  rcases List.mem_cons.mp hmem with hread | hmem
  · cases hread
  rcases List.mem_append.mp hmem with hundo | hverdict
  · split at hundo <;> cases hundo
    contradiction
  · unfold verdictEvents at hverdict
    split at hverdict
    · rename_i base himmediate
      obtain ⟨rfl, hkept⟩ := of_verdict_immediate himmediate
      split at hverdict
      · cases hverdict
      · rename_i hbad
        rcases h with rfl | rfl | hshows
        · exact hbad (.inl rfl)
        · exact hbad (.inr (.inl rfl))
        · exact hbad (.inr (.inr (hshows.read_ruled hkept).raw))
    · cases hverdict

/-- A ruling that puts nothing back leaves the scanner as it is. -/
theorem ruled_of_kept {ruling : Ruling} (h : ruling.putsBack = false) : sc.ruled ruling = sc := by
  rw [ruled, h]
  rfl

/-- Only the verdict to go on goes on. -/
theorem carryOut_again {verdict : Verdict} (h : sc.carryOut verdict = .again sc') :
    verdict = .again ∧ sc' = sc := by
  cases verdict <;> cases h
  exact ⟨rfl, rfl⟩

/-- A state is entered by its verdict, or behind a dropped line. -/
theorem carryOut_goto {verdict : Verdict} {state' : State}
    (h : sc.carryOut verdict = .ends (.goto state' sc')) :
    verdict = .goto state' ∧ sc' = sc ∨ verdict = .lineDropped ∧ state' = .any := by
  cases verdict with
  | goto state => cases h; exact .inl ⟨rfl, rfl⟩
  | lineDropped => cases h; exact .inr ⟨rfl, rfl⟩
  | immediate base =>
    rw [carryOut, emitImmediate] at h
    split at h <;> cases h
  | again => cases h
  | emit kind => cases h
  | fail fault => cases h
  | sourceDropped => cases h

/-- A pass that goes on leaves its state ready. -/
theorem Ready.again (h : sc.Ready state) (hpass : sc.pass state = .again sc') :
    sc'.Ready state := by
  obtain ⟨hverdict, rfl⟩ := carryOut_again ((pass_eq sc state).symm.trans hpass)
  obtain ⟨hzero, hdigits⟩ := of_verdict_again hverdict
  cases state with
  | afterZero => exact absurd rfl hzero
  | digits base =>
    obtain ⟨⟨c, hchar⟩, hkept⟩ := hdigits base rfl
    rw [ruled_of_kept hkept]
    exact h.imp_right (Or.imp_right fun hshows => by
      obtain ⟨pos, taken, ahead, hstands, hpresentable⟩ := hshows.read_char hchar
      exact ⟨pos, taken, ahead, hstands, hpresentable.mono (by omega)⟩)
  | any => trivial
  | space => trivial
  | comment => trivial
  | word kind => trivial
  | skipLine => trivial

/-- A state that hands over leaves the next one ready. -/
theorem Ready.goto {state' : State} (haligned : sc.Aligned) (h : sc.Ready state)
    (hpass : sc.pass state = .ends (.goto state' sc')) : sc'.Ready state' := by
  rcases carryOut_goto ((pass_eq sc state).symm.trans hpass) with ⟨hverdict, rfl⟩ | ⟨-, rfl⟩
  · rcases of_verdict_goto hverdict with ⟨c, hchar, hkept, ⟨rfl, hopening⟩ | ⟨rfl, hmarked⟩⟩ | rfl
    · rw [ruled_of_kept hkept]
      cases state' with
      | afterZero => exact haligned.shows_read_char hchar
      | digits base => exact .inr (.inl (opening?_digits hopening))
      | any => trivial
      | space => trivial
      | comment => trivial
      | word kind => trivial
      | skipLine => trivial
    · rw [ruled_of_kept hkept]
      have hshows : sc.read.2.Shows 2 := Shows.read_char h hchar
      rcases hmarked with rfl | rfl
      · exact .inr (.inr hshows)
      · exact .inr (.inr hshows)
    · exact .inl rfl
  · trivial

/-- From an aligned scanner that is ready the machine meets no mishap. -/
theorem Aligned.no_mishap_course (haligned : sc.Aligned) (h : sc.Ready state) (m : Mishap) :
    .mishap m ∉ (course state sc).events := by
  fun_induction course state sc with
  | case1 state sc sc' hpass ih =>
    have hnext := aligned_closed.pass haligned state
    rw [hpass] at hnext
    rw [Course.after, List.mem_append, not_or]
    exact ⟨h.no_mishap m, ih hnext (h.again hpass)⟩
  | case2 state sc state' sc' hpass ih =>
    have hnext := aligned_closed.pass haligned state
    rw [hpass] at hnext
    rw [Course.after, List.mem_append, List.mem_append, not_or, not_or]
    refine ⟨⟨h.no_mishap m, ?_⟩, ih hnext (h.goto haligned hpass)⟩
    rw [List.mem_singleton]
    simp
  | case3 state sc token sc' hpass => exact h.no_mishap m

/-- An aligned scanner comes to its next token without a mishap. -/
theorem Aligned.no_mishap_pullCourse (h : sc.Aligned) (m : Mishap) :
    .mishap m ∉ sc.pullCourse.events := by
  have hready : sc.Ready sc.resume := by
    unfold resume
    split <;> trivial
  rw [pullCourse, Course.after, List.mem_append, List.mem_singleton, not_or]
  exact ⟨by simp, h.no_mishap_course hready m⟩

end

end AsmLexer.Scanner

import AsmLexer.Proofs.Extent
import AsmLexer.Proofs.Offence
import AsmLexer.Proofs.Session.Backpressure

/-!
# The rest of a line is found by its newline

Two states read on to the end of a line whatever is on it: the one that takes a comment, and the one
that drops the line of an error. Both go symbol by symbol, over malformed bytes as well. No symbol
but the newline has a newline among its bytes, so they stop where a search for that byte does
(`Cursor.In.offset_lineEnd`).

A machine enters these states with its scanner at some place, which depends on all that was asked
for before. Wherever that is, the search from there says where the loop ends, what the comment holds
and where the scanner finds its next token (`line_read_to_newline`).
-/

set_option autoImplicit false

namespace AsmLexer

/-- The offset of the first newline at or behind an offset, or else the length of the source. -/
def newlineFrom (source : List UInt8) (n : Nat) : Nat :=
  n + (source.drop n).idxOf 0x0A

example : newlineFrom [0x3B, 0xE2, 0x82, 0x0A, 0x0A] 1 = 3 := by decide

/-- The place of the next newline, or else the end of the source. -/
def Cursor.lineEnd (c : Cursor) : Cursor :=
  Cursor.skipWhile Symbol.staysOnLine c.pos c.rest

/-- The states that a scanner goes through on the way to its next token, with the scanner as it is
when the state is entered. -/
inductive Scanner.Enters (begun : Scanner) : State → Scanner → Prop where
  | begins : Enters begun begun.resume begun
  | goes {state state' : State} {sc sc' : Scanner} : Enters begun state sc →
      Scanner.step state sc = .goto state' sc' → Enters begun state' sc'

/-- A request by which a caller moves the scanner without taking a token. -/
def Request.IsByHand (request : Request) : Prop :=
  request = .read ∨ request = .unread

/-- A scanner that begins its next token at an offset and has read nothing of it. -/
structure Scanner.RestsAt (sc : Scanner) (n : Nat) : Prop where
  start_eq_next : sc.start = sc.next
  offset_eq : sc.next.pos.offset = n

/-- A comment that a scanner takes up to an offset. It was begun by a scanner that may have read
some symbols by hand; if not, it begins with its semicolon. -/
structure Token.Comments (source : List UInt8) (begun sc : Scanner) (stop : Nat) (t : Token) :
    Prop where
  kind_eq : t.kind = .comment
  raw_eq : t.raw = (source.take stop).drop sc.start.pos.offset.toNat
  semicolon : source[sc.next.pos.offset.toNat - 1]? = some 0x3B
  start_eq : begun.start = begun.next →
    sc.start.pos.offset.toNat = sc.next.pos.offset.toNat - 1

/-- The token at an offset at which the dropping of a line has ended: the newline or the end. -/
structure Token.EndsLineAt (source : List UInt8) (stop : Nat) (t : Token) : Prop where
  offset_eq : t.pos.offset = stop
  kind_eq : t.kind = if stop < source.length then .endOfLine else .endOfFile
  raw_eq : t.raw = (source.drop stop).take 1

/-! ## Searching for the newline -/

section

variable {source : List UInt8} {c : Cursor}

/-- The place of the newline is behind the run that stays on the line. -/
theorem Cursor.lineEnd_eq (c : Cursor) :
    c.lineEnd = ⟨c.pos.afterAll (c.rest.takeWhile Symbol.staysOnLine),
      c.rest.dropWhile Symbol.staysOnLine⟩ :=
  Cursor.skipWhile_eq Symbol.staysOnLine c.pos c.rest

/-- At the place of the newline no line goes on. -/
theorem Cursor.atLineEnd_lineEnd (c : Cursor) : AtLineEnd c.lineEnd.rest := by
  rw [c.lineEnd_eq]
  exact atLineEnd_dropWhile c.rest

/-- The place of the newline is in the source. -/
theorem Cursor.In.lineEnd (h : c.In source) : c.lineEnd.In source := by
  obtain ⟨before, hsource, hpos⟩ := h
  refine ⟨before ++ c.rest.takeWhile Symbol.staysOnLine, ?_, ?_⟩
  · rw [c.lineEnd_eq, List.append_assoc, List.takeWhile_append_dropWhile, hsource]
  · rw [c.lineEnd_eq, hpos, Position.afterAll_append]

/-- The bytes behind the place of a cursor. -/
theorem Cursor.In.drop_eq (h : c.In source) :
    source.drop c.pos.offset.toNat = c.rest.flatMap Symbol.bytes := by
  obtain ⟨before, hsource, hpos⟩ := h
  rw [hpos, Position.offset_origin_afterAll, Int.toNat_natCast, drop_of_symbols hsource]

/-- No place of a source has a negative offset. -/
theorem Cursor.In.offset_nonneg (h : c.In source) : 0 ≤ c.pos.offset := by
  obtain ⟨before, -, hpos⟩ := h
  rw [hpos, Position.offset_origin_afterAll]
  exact Int.natCast_nonneg _

/-- Where the line has ended, the first byte is the newline, if there is one. -/
theorem idxOf_newline_of_atLineEnd {symbols : List Symbol} (h : AtLineEnd symbols) :
    (symbols.flatMap Symbol.bytes).idxOf 0x0A = 0 := by
  cases symbols with
  | nil => rfl
  | cons s more =>
    have hs : s = .char '\n' := h s rfl
    rw [hs]
    exact List.idxOf_cons_self

/-- Symbols are skipped up to the first newline among their bytes. -/
theorem idxOf_newline {symbols : List Symbol} (h : Readable symbols) :
    (symbols.flatMap Symbol.bytes).idxOf 0x0A =
      ((symbols.takeWhile Symbol.staysOnLine).flatMap Symbol.bytes).length := by
  have hline : .char '\n' ∉ symbols.takeWhile Symbol.staysOnLine := by
    intro hmem
    have hstays := List.mem_takeWhile_imp hmem
    simp [Symbol.staysOnLine] at hstays
  have hread : Readable (symbols.takeWhile Symbol.staysOnLine) := by
    intro s hs
    exact h s ((List.takeWhile_prefix _).subset hs)
  have hsplit : symbols.flatMap Symbol.bytes =
      (symbols.takeWhile Symbol.staysOnLine).flatMap Symbol.bytes ++
        (symbols.dropWhile Symbol.staysOnLine).flatMap Symbol.bytes := by
    rw [← List.flatMap_append, List.takeWhile_append_dropWhile]
  rw [hsplit, List.idxOf_append_of_notMem (hread.newline_notMem hline),
    idxOf_newline_of_atLineEnd (atLineEnd_dropWhile symbols), Nat.add_zero]

/-- The place to which a line is read is the one that the search for its newline finds. -/
theorem Cursor.In.offset_lineEnd (h : c.In source) :
    c.lineEnd.pos.offset = newlineFrom source c.pos.offset.toNat := by
  have hread : Readable c.rest := by
    obtain ⟨before, hsource, -⟩ := h
    exact readable_of_symbols hsource
  have hoffset := h.offset_nonneg
  rw [newlineFrom, h.drop_eq, idxOf_newline hread, c.lineEnd_eq]
  simp only [Position.offset_afterAll]
  omega

end

/-! ## The two loops -/

namespace Scanner

section

variable {source : List UInt8} {begun sc sc' : Scanner} {state : State}

/-- Reading while the line goes on is to go to its end and to read once more. -/
theorem readWhile_staysOnLine (sc : Scanner) :
    sc.readWhile Symbol.staysOnLine = read { sc with next := sc.next.lineEnd } := rfl

/-- A comment takes all up to the end of its line. -/
theorem stepComment_eq (sc : Scanner) :
    ∃ checkpoint, step .comment sc =
      ({ sc with next := sc.next.lineEnd, checkpoint } : Scanner).emit .comment := by
  simp only [step, stepComment, readWhile_staysOnLine]
  cases hrest : sc.next.lineEnd.rest with
  | nil =>
    rw [read_of_nil hrest]
    exact ⟨_, rfl⟩
  | cons s more =>
    rw [read_of_cons hrest]
    exact ⟨_, rfl⟩

/-- A line that is dropped up to the end of the source leaves nothing but that end. -/
theorem stepSkipLine_of_end (h : sc.next.lineEnd.rest = []) :
    step .skipLine sc = ({ sc with
      start := sc.next.lineEnd
      next := sc.next.lineEnd
      checkpoint := some sc.next.lineEnd } : Scanner).emit .endOfFile := by
  simp only [step, stepSkipLine, readWhile_staysOnLine]
  rw [read_of_nil h]

/-- Otherwise the next token begins with the newline. -/
theorem stepSkipLine_of_newline {s : Symbol} {more : List Symbol}
    (h : sc.next.lineEnd.rest = s :: more) :
    step .skipLine sc = .goto .any { sc with
      start := sc.next.lineEnd
      next := sc.next.lineEnd
      checkpoint := none } := by
  simp only [step, stepSkipLine, readWhile_staysOnLine]
  rw [read_of_cons h]
  rfl

/-- A newline is a token by itself. -/
theorem run_any_of_newline {pos : Position} {more : List Symbol}
    (h : sc.Stands pos [] (.char '\n' :: more)) :
    (run .any sc).1 = ⟨.endOfLine, pos, [0x0A], ""⟩ := by
  obtain ⟨sc', hread, hstands, -⟩ := h.read_cons
  have hstep : step .any sc = sc'.emit .endOfLine := by
    simp only [step, stepAny, hread]
    rfl
  rw [run_of_emit hstep, hstands.raw, hstands.start]
  rfl

end

/-! ## How the loops are entered -/

section

variable {source : List UInt8} {begun sc sc' : Scanner} {state : State}

/-- A step to another state stays in the source. -/
theorem In.step_goto {state' : State} (h : sc.In source)
    (hstep : step state sc = .goto state' sc') : sc'.In source := by
  have hkeeps := in_closed.step h state
  rw [hstep] at hkeeps
  exact hkeeps

/-- All that a scanner goes through is in its source. -/
theorem Enters.in (h : begun.Enters state sc) (hbegun : begun.In source) : sc.In source := by
  induction h with
  | begins => exact hbegun
  | goes _ hstep ih => exact ih.step_goto hstep

/-- Only a semicolon opens a comment. -/
theorem opening?_comment {c : Char} (h : opening? c = some .comment) : c = ';' := by
  unfold opening? at h
  split at h
  · assumption
  · repeat' split at h
    all_goals cases h

/-- Only the first symbol of a token hands over to a comment, and dropping a line to a new token. -/
theorem goto_cases {state' : State} (h : step state sc = .goto state' sc') :
    state = .any ∧ (∃ c, sc.read = (some (.char c), sc') ∧ opening? c = some state') ∨
      state' = .any ∧ sc'.AtLineEnd ∨ ∃ base, state' = .digits base := by
  cases state with
  | any =>
    simp only [step, stepAny, emit, fail, failAt] at h
    split at h
    · cases h
    · cases h
    · split at h
      · cases h
      · cases h
        exact .inl ⟨rfl, _, ‹_›, ‹_›⟩
      · cases h
  | skipLine =>
    cases hrest : sc.next.lineEnd.rest with
    | nil =>
      rw [stepSkipLine_of_end hrest] at h
      cases h
    | cons s more =>
      have hline : s = .char '\n' := sc.next.atLineEnd_lineEnd s (by rw [hrest]; rfl)
      rw [stepSkipLine_of_newline hrest] at h
      cases h
      refine .inr (.inl ⟨rfl, ?_⟩)
      rw [AtLineEnd, hrest, hline]
      rfl
  | afterZero =>
    -- a zero hands over to digits only
    simp only [step, stepAfterZero, emit, fail, failAt] at h
    repeat' split at h
    all_goals cases h
    all_goals exact .inr (.inr ⟨_, rfl⟩)
  | comment =>
    obtain ⟨checkpoint, hemit⟩ := stepComment_eq sc
    rw [hemit] at h
    cases h
  | space => simp only [step, stepSpace, emit] at h; split at h <;> cases h
  | digits base =>
    simp only [step, stepDigits, emitImmediate, emit, fail, failAt] at h
    repeat' split at h
    all_goals cases h
  | word kind =>
    simp only [step, stepWord, emit, fail, failAt] at h
    repeat' split at h
    all_goals cases h

/-- The beginning of a token is entered again only in front of a newline. -/
theorem of_goto_any (h : step state sc = .goto .any sc') : sc'.AtLineEnd := by
  rcases goto_cases h with ⟨-, c, -, hopening⟩ | ⟨-, hend⟩ | ⟨base, hdigits⟩
  · exact absurd (rank_lt_of_opening hopening) (Nat.lt_irrefl _)
  · exact hend
  · cases hdigits

/-- A comment is entered where a token begins, by its semicolon. -/
theorem of_goto_comment (h : step state sc = .goto .comment sc') :
    state = .any ∧ sc.read = (some (.char ';'), sc') := by
  rcases goto_cases h with ⟨rfl, c, hread, hopening⟩ | ⟨hany, -⟩ | ⟨base, hdigits⟩
  · rw [opening?_comment hopening] at hread
    exact ⟨rfl, hread⟩
  · cases hany
  · cases hdigits

/-- The first reading for a token enters its comment. -/
theorem Enters.comment (h : begun.Enters .comment sc) : begun.read = (some (.char ';'), sc) := by
  generalize hstate : State.comment = state at h
  cases h with
  | begins =>
    unfold resume at hstate
    split at hstate <;> cases hstate
  | goes hbefore hstep =>
    subst hstate
    obtain ⟨rfl, hread⟩ := of_goto_comment hstep
    generalize hany : State.any = state at hbefore
    cases hbefore with
    | begins => exact hread
    | goes _ hgoto =>
      subst hany
      have hend := of_goto_any hgoto
      rw [AtLineEnd, ← read_fst, hread] at hend
      simp at hend

end

/-! ## Where the loops end -/

section

variable {source : List UInt8} {begun sc : Scanner}

/-- A scanner that rests has taken nothing. -/
theorem stands_of_rests (h : sc.start = sc.next) : sc.Stands sc.next.pos [] sc.next.rest :=
  ⟨h, rfl⟩

/-- The bytes of a token are those between its beginning and the place behind it. -/
theorem StopsBehind.raw_eq {first : Int} {raw : List UInt8} {stop : Nat}
    (h : sc.StopsBehind source first raw) (hstop : sc.next.pos.offset = stop) :
    raw = (source.take stop).drop first.toNat := by
  have hfirst := h.first_nonneg
  have hoffset := h.offset_next
  have hlength : stop - first.toNat = raw.length := by omega
  rw [List.drop_take, hlength]
  exact List.prefix_iff_eq_take.mp h.isPrefix

/-- A comment is entered behind its semicolon. -/
theorem Enters.semicolon (hin : begun.In source) (h : begun.Enters .comment sc) :
    source[begun.next.pos.offset.toNat]? = some 0x3B ∧
      sc.next.pos.offset = begun.next.pos.offset + 1 ∧ sc.start = begun.start := by
  have hread := h.comment
  have hdrop := hin.next.drop_eq
  cases hrest : begun.next.rest with
  | nil =>
    rw [read_of_nil hrest] at hread
    cases hread
  | cons s ahead =>
    rw [read_of_cons hrest] at hread
    cases hread
    rw [hrest] at hdrop
    refine ⟨?_, Position.offset_after _ _, rfl⟩
    rw [← Nat.add_zero begun.next.pos.offset.toNat, ← List.getElem?_drop, hdrop]
    rfl

/-- A comment goes from the start of its scanner up to the next newline. -/
theorem Enters.comments (hin : begun.In source) (haligned : begun.Aligned)
    (h : begun.Enters .comment sc) :
    ∃ t sc', step .comment sc = .emit t sc' ∧
      sc'.RestsAt (newlineFrom source sc.next.pos.offset.toNat) ∧
      t.Comments source begun sc (newlineFrom source sc.next.pos.offset.toNat) := by
  have hscin : sc.In source := h.in hin
  have hoffset := hscin.next.offset_lineEnd
  obtain ⟨hbyte, hnext, hstart⟩ := h.semicolon hin
  obtain ⟨pos, taken, ahead, hstands⟩ : sc.Standing := by
    have hstanding := haligned.standing_read
    rwa [h.comment] at hstanding
  -- whether the last reading of the loop can be undone does not matter for the token
  let last : Scanner := { sc with next := sc.next.lineEnd, checkpoint := none }
  have hlast : last.Standing := by
    obtain ⟨hskipped, hended⟩ := hstands.skipWhile Symbol.staysOnLine
    exact ⟨_, _, _, hskipped, hended⟩
  have hlastin : last.In source := by
    refine ⟨hscin.start, hscin.next.lineEnd, ?_⟩
    intro c hc
    cases hc
  have hstops := (emits_of_emit (show last.emit .comment = .emit _ _ from rfl)).stopsBehind
    hlast hlastin
  obtain ⟨checkpoint, hemit⟩ := stepComment_eq sc
  refine ⟨_, _, hemit, ⟨rfl, hoffset⟩, rfl, ?_, ?_, ?_⟩
  · exact hstops.raw_eq hoffset
  · rw [hnext]
    have hp : (begun.next.pos.offset + 1).toNat - 1 = begun.next.pos.offset.toNat := by omega
    rw [hp]
    exact hbyte
  · intro hrests
    rw [hstart, hrests, hnext]
    omega

/-- A dropped line ends at the next newline, and there the next token begins. -/
theorem skipLine_ends (hin : sc.In source) :
    (step .skipLine sc).scanner.RestsAt (newlineFrom source sc.next.pos.offset.toNat) ∧
      (run .skipLine sc).1.EndsLineAt source (newlineFrom source sc.next.pos.offset.toNat) := by
  have hoffset := hin.next.offset_lineEnd
  have hdrop := hin.next.lineEnd.drop_eq
  rw [hoffset, Int.toNat_natCast] at hdrop
  cases hrest : sc.next.lineEnd.rest with
  | nil =>
    have hstep := stepSkipLine_of_end hrest
    rw [hrest, List.flatMap_nil] at hdrop
    have hend : ¬ newlineFrom source sc.next.pos.offset.toNat < source.length :=
      Nat.not_lt.mpr (List.drop_eq_nil_iff.mp hdrop)
    rw [run_of_emit hstep, hstep]
    refine ⟨⟨rfl, hoffset⟩, hoffset, ?_, ?_⟩
    · rw [if_neg hend]
    · rw [hdrop]
      exact (stands_of_rests rfl).raw
  | cons s more =>
    have hstep := stepSkipLine_of_newline hrest
    have hs : s = .char '\n' := sc.next.atLineEnd_lineEnd s (by rw [hrest]; rfl)
    subst hs
    rw [hrest, List.flatMap_cons] at hdrop
    have hstop : newlineFrom source sc.next.pos.offset.toNat < source.length := by
      by_contra hend
      rw [List.drop_eq_nil_iff.mpr (Nat.not_lt.mp hend)] at hdrop
      cases hdrop
    -- the scanner rests in front of the newline, which is its next token
    have hstands := stands_of_rests (show ({ sc with
      start := sc.next.lineEnd
      next := sc.next.lineEnd
      checkpoint := none } : Scanner).start = sc.next.lineEnd from rfl)
    dsimp only at hstands
    rw [hrest] at hstands
    rw [run_of_goto hstep, hstep, run_any_of_newline hstands]
    refine ⟨⟨rfl, hoffset⟩, hoffset, ?_, ?_⟩
    · rw [if_pos hstop]
    · rw [hdrop]
      rfl

end

end Scanner

/-! ## Histories -/

section

variable {source : List UInt8}

/-- A scan leaves a scanner at rest that has read nothing by hand. -/
theorem rests_scan {s : Session} (haligned : s.Has Scanner.Aligned)
    (hin : s.Has (Scanner.In source)) (hrests : s.scanner.start = s.scanner.next) :
    s.scan.2.scanner.start = s.scan.2.scanner.next := by
  cases hclosed : s.closed with
  | true => rwa [Session.scan_of_closed hclosed]
  | false =>
    cases hended : s.ended with
    | some last => rwa [Session.scan_of_ended hclosed hended]
    | none =>
      rw [Session.scan_of_running hclosed hended]
      exact (haligned.scanner.pull hin.scanner).start_eq_next

/-- As long as no caller moves the scanner by hand, it rests between two requests. -/
theorem rests_serveAll {d : Desk} {requests : List Request}
    (haligned : d.session.Has Scanner.Aligned) (hin : d.session.Has (Scanner.In source))
    (hrests : d.session.scanner.start = d.session.scanner.next)
    (h : ∀ request ∈ requests, ¬ request.IsByHand) :
    (d.serveAll requests).2.session.scanner.start =
      (d.serveAll requests).2.session.scanner.next := by
  induction requests generalizing d with
  | nil => exact hrests
  | cons request more ih =>
    rw [List.forall_mem_cons] at h
    rw [Desk.serveAll_cons]
    apply ih (Scanner.aligned_closed.serve haligned request).2
      (Scanner.in_closed.serve hin request).2 _ h.2
    by_cases hasks : d.Asks request
    · rw [(Desk.serve_of_asks hasks).1]
      exact rests_scan haligned hin hrests
    · rw [(Desk.serve_of_not_asks hasks).2]
      cases request with
      | read => exact absurd (.inl rfl) h.1
      | unread => exact absurd (.inr rfl) h.1
      | close => exact hrests
      | scan => exact hrests
      | item index => exact hrests
      | iterate => exact hrests

end

/-- Whatever was asked for before, a state that reads to the end of a line ends where a search for
the newline does. A comment holds all bytes up to there, from its semicolon on unless something was
read by hand in front of it. Behind a dropped line the next token is the newline that was found, or
else the end of the source. -/
theorem line_read_to_newline {source : List UInt8} {requests : List Request} {state : State}
    {sc : Scanner} :
    let begun := ((Desk.ofSource source).serveAll requests).2.session.scanner;
    let stop := newlineFrom source sc.next.pos.offset.toNat;
    begun.Enters state sc →
    ((∀ request ∈ requests, ¬ request.IsByHand) → begun.start = begun.next) ∧
    (state = .comment → ∃ t sc', Scanner.step .comment sc = .emit t sc' ∧ sc'.RestsAt stop ∧
      t.Comments source begun sc stop) ∧
    (state = .skipLine → (Scanner.step .skipLine sc).scanner.RestsAt stop ∧
      (Scanner.run .skipLine sc).1.EndsLineAt source stop) := by
  intro begun stop h
  have haligned : (Desk.ofSource source).session.Has Scanner.Aligned :=
    Session.has_ofSource (Scanner.aligned_ofSource source)
  have hin : (Desk.ofSource source).session.Has (Scanner.In source) :=
    Session.has_ofSource Scanner.in_ofSource
  have hbegun : begun.In source := (Scanner.in_closed.serveAll hin requests).2.scanner
  refine ⟨rests_serveAll haligned hin rfl, ?_, ?_⟩
  · rintro rfl
    exact h.comments hbegun (Scanner.aligned_closed.serveAll haligned requests).2.scanner
  · rintro rfl
    exact Scanner.skipLine_ends (h.in hbegun)

/-- A comment in which a sequence of three bytes is cut off by the newline. -/
theorem line_read_to_newline_truncated :
    let source : List UInt8 := [0x3B, 0xE2, 0x82, 0x0A];
    let begun := ((Desk.ofSource source).serveAll []).2.session.scanner;
    let sc := begun.read.2;
    begun.Enters .comment sc ∧
      ∃ t sc', Scanner.step .comment sc = .emit t sc' ∧ sc'.RestsAt 3 ∧ t.kind = .comment ∧
        t.raw = [0x3B, 0xE2, 0x82] := by
  intro source begun sc
  have hread : begun.read = (some (.char ';'), sc) := by
    have hsymbol : begun.read.1 = some (.char ';') := by decide +kernel
    exact Prod.ext hsymbol rfl
  have hstep : Scanner.step begun.resume begun = .goto .comment sc := by
    show Scanner.stepAny begun = _
    simp only [Scanner.stepAny, hread]
    rfl
  have henters : begun.Enters .comment sc := .goes .begins hstep
  have hp : sc.next.pos.offset.toNat = 1 := by decide +kernel
  have hstop : newlineFrom source 1 = 3 := by decide
  obtain ⟨hrests, hcomment, -⟩ := @line_read_to_newline source [] .comment sc henters
  obtain ⟨t, sc', hemit, hends, hcomments⟩ := hcomment rfl
  have hraw := hcomments.raw_eq
  rw [hcomments.start_eq (hrests (List.forall_mem_nil _)), hp, hstop] at hraw
  rw [hp, hstop] at hends
  exact ⟨henters, t, sc', hemit, hends, hcomments.kind_eq, hraw⟩

end AsmLexer

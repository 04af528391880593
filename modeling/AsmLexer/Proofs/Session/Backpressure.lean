import AsmLexer.Proofs.Scanner.Alignment
import AsmLexer.Proofs.Session.Positions

/-!
# A scanner stops behind its token

A token is emitted where the scanner has come to, and the next one starts there
(`Scanner.Stands.stopsBehind`). What a state must know for this is that its token starts where the
scanner says, in front of what it reads (`Scanner.Poised`). Readings by hand can leave a scanner one
symbol in front of the start of its token, but the first reading of the next token makes up for
that. So each scan that builds a token leaves the scanner right behind the bytes of that token
(`stopsBehind_serve`), whatever was asked for before.
-/

set_option autoImplicit false

namespace AsmLexer

/-- A scanner that has come to rest right behind the bytes of a token that begin at an offset. -/
structure Scanner.StopsBehind (source : List UInt8) (first : Int) (raw : List UInt8)
    (sc : Scanner) : Prop where
  start_eq_next : sc.start = sc.next
  first_nonneg : 0 ≤ first
  isPrefix : raw <+: source.drop first.toNat
  offset_next : sc.next.pos.offset = first + raw.length

namespace Scanner

/-- A scanner that stands somewhere behind the start of its token. -/
def Standing (sc : Scanner) : Prop :=
  ∃ pos taken ahead, sc.Stands pos taken ahead

/-- A scanner in front of the newline up to which an erroneous line was dropped. -/
def AtLineEnd (sc : Scanner) : Prop :=
  sc.next.rest.head? = some (.char '\n')

/-- What is known of a scanner in a state if the machine began with the start of its token at a
cursor. Only where a line is dropped does the start move. -/
structure Poised (begun : Cursor) (sc : Scanner) (state : State) : Prop where
  aligned : sc.Aligned
  standing : state ≠ .any → state ≠ .skipLine → sc.Standing
  start_eq : state ≠ .skipLine → sc.start = begun ∨ state = .any ∧ sc.AtLineEnd

/-- A token that takes all that a scanner has read, and the scanner behind it. -/
structure Emits (sc : Scanner) (t : Token) (sc' : Scanner) : Prop where
  raw_eq : t.raw = sc.raw
  start_eq : sc'.start = sc.next
  next_eq : sc'.next = sc.next
  pos_eq : t.kind ≠ .error → t.pos = sc.start.pos

section

variable {source : List UInt8} {begun : Cursor} {state : State} {sc sc' : Scanner} {t : Token}

/-! ## Readings -/

/-- A reading finds the symbol ahead, if there is one. -/
theorem read_fst (sc : Scanner) : sc.read.1 = sc.next.rest.head? := by
  unfold read
  split
  · rename_i h
    rw [h]
    rfl
  · rename_i h
    rw [h]
    rfl

/-- Neither a reading nor its undoing moves the start of the token. -/
theorem start_read_ruled (sc : Scanner) (ruling : Ruling) :
    (sc.read.2.ruled ruling).start = sc.start := by
  unfold ruled read
  split <;> split <;> rfl

/-- A scanner stands behind its start, whether its reading is undone or not. -/
theorem Standing.read_ruled (h : sc.Standing) (ruling : Ruling) :
    (sc.read.2.ruled ruling).Standing := by
  obtain ⟨pos, taken, ahead, hstands⟩ := h
  unfold ruled
  cases ahead with
  | nil =>
    rw [read_of_nil (by rw [hstands.next])]
    split
    · exact ⟨pos, taken, [], hstands.start, hstands.next⟩
    · exact ⟨pos, taken, [], hstands.start, hstands.next⟩
  | cons s ahead =>
    obtain ⟨sc', hread, htaken, hundone, -⟩ := hstands.read_cons
    rw [hread]
    split
    · exact ⟨_, _, _, hundone⟩
    · exact ⟨_, _, _, htaken⟩

/-- Behind a reading the scanner stands somewhere behind its start. -/
theorem Aligned.standing_read (h : sc.Aligned) : sc.read.2.Standing := by
  have hread {pos : Position} {taken ahead : List Symbol} (hstands : sc.Stands pos taken ahead) :
      sc.read.2.Standing :=
    Standing.read_ruled ⟨pos, taken, ahead, hstands⟩ ⟨false, .again⟩
  cases h with
  | settled hstands => exact hread hstands
  | ended hstands => exact hread hstands
  | taken hstands => exact hread hstands
  | behind hstands => exact hread hstands
  | @undone pos ahead s hstart hnext =>
    rw [read_of_cons (by rw [hnext])]
    refine ⟨pos.after s, [], ahead, hstart, ?_⟩
    rw [hnext]
    rfl

/-! ## Passes -/

/-- The state before a token puts nothing back. -/
theorem putsBack_any (symbol : Option Symbol) : (State.any.ruling symbol).putsBack = false := by
  generalize hstate : State.any = state
  fun_cases State.ruling state symbol <;> simp_all

/-- A dropped line ends with its newline. -/
theorem of_verdict_lineDropped {symbol : Option Symbol}
    (h : (state.ruling symbol).verdict = .lineDropped) :
    state = .skipLine ∧ symbol = some (.char '\n') ∧ (state.ruling symbol).putsBack = true := by
  revert h
  fun_cases State.ruling state symbol <;> simp_all [Symbol.staysOnLine]

/-- The state that drops a line does nothing else. -/
theorem verdict_skipLine (symbol : Option Symbol) :
    (State.skipLine.ruling symbol).verdict = .again ∨
      (State.skipLine.ruling symbol).verdict = .lineDropped ∨
      (State.skipLine.ruling symbol).verdict = .sourceDropped := by
  generalize hstate : State.skipLine = state
  fun_cases State.ruling state symbol <;> simp_all

/-- At the end of a dropped line the next token is its newline. -/
theorem AtLineEnd.verdict (h : sc.AtLineEnd) :
    (State.any.ruling sc.read.1).verdict = .emit .endOfLine := by
  rw [read_fst, h]
  rfl

/-- Outside a dropped line a pass leaves the scanner behind its start. -/
theorem Poised.standing_ruled (h : Poised begun sc state) (hskip : state ≠ .skipLine) :
    (sc.read.2.ruled (state.ruling sc.read.1)).Standing := by
  by_cases hany : state = .any
  · rw [hany, ruled_of_kept (putsBack_any _)]
    exact h.aligned.standing_read
  · exact (h.standing hany hskip).read_ruled _

/-- A pass that does not end a line keeps the start with which the machine began. -/
theorem Poised.start_ruled (h : Poised begun sc state) (hskip : state ≠ .skipLine)
    (hverdict : (state.ruling sc.read.1).verdict ≠ .emit .endOfLine) :
    (sc.read.2.ruled (state.ruling sc.read.1)).start = begun := by
  rw [start_read_ruled]
  refine (h.start_eq hskip).resolve_right ?_
  rintro ⟨rfl, hend⟩
  exact hverdict hend.verdict

/-- A pass that goes on leaves its state poised. -/
theorem Poised.again (h : Poised begun sc state) (hpass : sc.pass state = .again sc') :
    Poised begun sc' state := by
  have haligned := aligned_closed.pass h.aligned state
  rw [hpass] at haligned
  obtain ⟨hverdict, rfl⟩ := carryOut_again ((pass_eq sc state).symm.trans hpass)
  refine ⟨haligned, fun _ hskip => h.standing_ruled hskip, fun hskip => .inl ?_⟩
  exact h.start_ruled hskip (by simp [hverdict])

/-- A state that hands over leaves the next one poised. -/
theorem Poised.goto {state' : State} (h : Poised begun sc state)
    (hpass : sc.pass state = .ends (.goto state' sc')) : Poised begun sc' state' := by
  have haligned := aligned_closed.pass h.aligned state
  rw [hpass] at haligned
  have hcarry := (pass_eq sc state).symm.trans hpass
  rcases carryOut_goto hcarry with ⟨hverdict, rfl⟩ | ⟨hverdict, rfl⟩
  · have hskip : state ≠ .skipLine := by
      rintro rfl
      have hdrops := verdict_skipLine sc.read.1
      rw [hverdict] at hdrops
      simp at hdrops
    refine ⟨haligned, fun _ _ => h.standing_ruled hskip, fun _ => .inl ?_⟩
    exact h.start_ruled hskip (by simp [hverdict])
  · obtain ⟨rfl, hnewline, hputsBack⟩ := of_verdict_lineDropped hverdict
    refine ⟨haligned, fun hany => absurd rfl hany, fun _ => .inr ⟨rfl, ?_⟩⟩
    -- the newline was read and put back, so the scanner is in front of it again
    rw [hverdict] at hcarry
    cases hcarry
    show (sc.read.2.ruled _).next.rest.head? = _
    rw [ruled, hputsBack, if_pos rfl, next_undo_read, ← read_fst, hnewline]

/-! ## Emissions -/

/-- A token that is emitted takes all that was read. -/
theorem emits_of_emit {kind : Kind} (h : sc.emit kind = .emit t sc') : sc.Emits t sc' := by
  cases h
  exact ⟨rfl, rfl, rfl, fun _ => rfl⟩

/-- An error token takes all that was read. -/
theorem emits_of_failAt {pos : Position} {fault : Fault} (h : sc.failAt pos fault = .emit t sc') :
    sc.Emits t sc' := by
  cases h
  exact ⟨rfl, rfl, rfl, fun hkind => absurd rfl hkind⟩

/-- A verdict emits all that was read, or the empty end behind a dropped line. -/
theorem emits_of_carryOut {verdict : Verdict} (h : sc.carryOut verdict = .ends (.emit t sc')) :
    verdict ≠ .sourceDropped ∧ sc.Emits t sc' ∨
      t.kind ≠ .error ∧ ({ sc with start := sc.next } : Scanner).Emits t sc' := by
  cases verdict with
  | emit kind => exact .inl ⟨by simp, emits_of_emit (Pass.ends.inj h)⟩
  | fail fault => exact .inl ⟨by simp, emits_of_failAt (Pass.ends.inj h)⟩
  | immediate base =>
    have hemit := Pass.ends.inj h
    rw [emitImmediate] at hemit
    split at hemit
    · exact .inl ⟨by simp, emits_of_emit hemit⟩
    · exact .inl ⟨by simp, emits_of_failAt hemit⟩
  | sourceDropped =>
    have hemit := Pass.ends.inj h
    refine .inr ⟨?_, emits_of_emit hemit⟩
    cases hemit
    simp
  | again => cases h
  | goto state => cases h
  | lineDropped => cases h

/-- A poised scanner emits a token that starts where its scanner says, and an error where the
machine began. -/
theorem Poised.emits (h : Poised begun sc state) (hin : sc.In source)
    (hpass : sc.pass state = .ends (.emit t sc')) :
    ∃ last : Scanner, last.Emits t sc' ∧ last.Standing ∧ last.In source ∧
      (t.kind = .error → last.start = begun) := by
  have hcarry := (pass_eq sc state).symm.trans hpass
  have hruled : (sc.read.2.ruled (state.ruling sc.read.1)).In source := by
    unfold ruled
    split
    · exact in_closed.undo hin.read
    · exact hin.read
  rcases emits_of_carryOut hcarry with ⟨hverdict, hemits⟩ | ⟨hkind, hemits⟩
  · have hskip : state ≠ .skipLine := by
      rintro rfl
      rcases verdict_skipLine sc.read.1 with hdrops | hdrops | hdrops
      · rw [hdrops] at hcarry
        cases hcarry
      · rw [hdrops] at hcarry
        cases hcarry
      · exact hverdict hdrops
    refine ⟨_, hemits, h.standing_ruled hskip, hruled, fun hkind => h.start_ruled hskip ?_⟩
    -- where a line was dropped, its newline is the token, and no error
    intro hline
    rw [hline] at hcarry
    cases hcarry
    cases hkind
  · refine ⟨_, hemits, ⟨_, [], _, rfl, rfl⟩, in_closed.settle _ hruled, fun herror => ?_⟩
    exact absurd herror hkind

/-- A token takes the bytes between the start of its scanner and where that stops. -/
theorem Emits.stopsBehind (h : sc.Emits t sc') (hstanding : sc.Standing) (hin : sc.In source) :
    sc'.StopsBehind source sc.start.pos.offset t.raw := by
  obtain ⟨pos, taken, ahead, hstands⟩ := hstanding
  obtain ⟨before, hsource, hpos⟩ := hin.start
  rw [hstands.start] at hsource hpos
  have hraw : t.raw = taken.flatMap Symbol.bytes := h.raw_eq.trans hstands.raw
  have hoffset : sc.start.pos.offset = ((before.flatMap Symbol.bytes).length : Int) := by
    rw [hstands.start]
    exact (congrArg Position.offset hpos).trans (Position.offset_origin_afterAll before)
  refine ⟨h.start_eq.trans h.next_eq.symm, ?_, ?_, ?_⟩
  · rw [hoffset]
    exact Int.natCast_nonneg _
  · rw [hoffset, Int.toNat_natCast, drop_of_symbols hsource, hraw, List.flatMap_append]
    exact List.prefix_append _ _
  · rw [h.next_eq, hstands.next, hraw, hstands.start]
    exact Position.offset_afterAll _ _

/-! ## Runs -/

/-- A machine that begins poised stops behind the bytes of its token. They begin where that token
starts, and those of an error where the machine began. -/
theorem Poised.run (h : Poised begun sc state) (hin : sc.In source) :
    (run state sc).2.StopsBehind source
      (if (run state sc).1.kind = .error then begun.pos.offset
        else (run state sc).1.pos.offset) (run state sc).1.raw := by
  rw [← result_course]
  fun_induction course state sc with
  | case1 state sc sc' hpass ih =>
    have hnext := in_closed.pass hin state
    rw [hpass] at hnext
    exact ih (h.again hpass) hnext
  | case2 state sc state' sc' hpass ih =>
    have hnext := in_closed.pass hin state
    rw [hpass] at hnext
    exact ih (h.goto hpass) hnext
  | case3 state sc t sc' hpass =>
    obtain ⟨last, hemits, hstanding, hlast, hbegun⟩ := h.emits hin hpass
    have hstops := hemits.stopsBehind hstanding hlast
    dsimp only
    split
    · rw [← hbegun ‹_›]
      exact hstops
    · rw [hemits.pos_eq ‹_›]
      exact hstops

/-- A pull leaves the scanner right behind the bytes of its token. -/
theorem Aligned.pull (h : sc.Aligned) (hin : sc.In source) :
    sc.pull.2.StopsBehind source
      (if sc.pull.1.kind = .error then sc.start.pos.offset else sc.pull.1.pos.offset)
      sc.pull.1.raw := by
  refine Poised.run ⟨h, ?_, ?_⟩ hin
  · unfold resume
    split
    · exact fun _ hskip => absurd rfl hskip
    · exact fun hany => absurd rfl hany
  · exact fun _ => .inl rfl

end

end Scanner

/-! ## Histories -/

/-- Whatever was asked for before, a request that has a token built leaves the scanner right behind
the bytes of that token. They begin at its place, or at the start of the scanner if it is an
error. -/
theorem stopsBehind_serve {source : List UInt8} {requests : List Request} {request : Request}
    {t : Token} :
    let d := ((Desk.ofSource source).serveAll requests).2
    d.session.ended = none → (d.serve request).1.token? = some t →
    (d.serve request).2.session.scanner.StopsBehind source
      (if t.kind = .error then d.session.scanner.start.pos.offset else t.pos.offset) t.raw := by
  intro d hended ht
  have haligned : d.session.Has Scanner.Aligned :=
    (Scanner.aligned_closed.serveAll
      (Session.has_ofSource (Scanner.aligned_ofSource source)) requests).2
  have hin : d.session.Has (Scanner.In source) :=
    (Scanner.in_closed.serveAll (Session.has_ofSource Scanner.in_ofSource) requests).2
  have hasks : d.Asks request := by
    by_contra hnot
    rw [(Desk.serve_of_not_asks hnot).1] at ht
    cases ht
  obtain ⟨hsession, htoken⟩ := Desk.serve_of_asks hasks
  rw [htoken] at ht
  rw [hsession]
  cases hclosed : d.session.closed with
  | true =>
    rw [Session.scan_of_closed hclosed] at ht
    cases ht
  | false =>
    rw [Session.scan_of_running hclosed hended] at ht ⊢
    cases ht
    exact haligned.scanner.pull hin.scanner

end AsmLexer

import AsmLexer.Proofs.Scanner.Alignment
import AsmLexer.Proofs.Session.Positions

/-!
# What can fail in a session

Callers may read and undo by hand between their scans, in any order, so a scan may begin in the
middle of a token or in front of one that was handed out already. Even so an operation of a session
fails only for the reason that its caller can see. A scan fails when the session is closed, an
undoing when no reading is left to undo, and a reading when a byte is malformed (`serveAll_safe`).

Whether a reading is left to undo can be told from the log of a history alone: some reading, by a
caller or by the machine, is the last of the readings and undoings in it (`Undoable`).
-/

set_option autoImplicit false

namespace AsmLexer

/-! ## The log of a history -/

/-- What happens in the machine when a session is asked for a token. -/
def Session.scanEvents (s : Session) : List Event :=
  if s.closed = true ∨ s.ended.isSome then [] else s.scanner.pullCourse.events

namespace Desk

/-- What happens when a request is served. An undoing that fails is one, too. -/
def events (d : Desk) : Request → List Event
  | .scan => d.session.scanEvents
  | .item index => if d.iterators[index]? = some .live then d.session.scanEvents else []
  | .read => [.read]
  | .unread => [.undo]
  | .iterate | .close => []

/-- What happens in a history. -/
def log (d : Desk) : List Request → List Event
  | [] => []
  | request :: more => d.events request ++ (d.serve request).2.log more

end Desk

/-- A reading was made behind which nothing was undone. -/
def Undoable (events : List Event) : Prop :=
  ∃ before after, events = before ++ .read :: after ∧ .undo ∉ after

/-- Where nothing has happened there is nothing to undo. -/
theorem not_undoable_nil : ¬ Undoable [] := by
  rintro ⟨before, after, h, -⟩
  cases before <;> cases h

/-- What can be undone was read behind, or in front with no undoing behind. -/
theorem undoable_append (events more : List Event) :
    Undoable (events ++ more) ↔ Undoable more ∨ Undoable events ∧ .undo ∉ more := by
  constructor
  · rintro ⟨before, after, h, hafter⟩
    rcases List.append_eq_append_iff.mp h with ⟨between, rfl, hmore⟩ | ⟨between, hbefore, hmore⟩
    · exact .inl ⟨between, after, hmore, hafter⟩
    · cases between with
      | nil => exact .inl ⟨[], after, hmore.symm, hafter⟩
      | cons e between =>
        cases hmore
        have hafter : .undo ∉ between ++ more := hafter
        rw [List.mem_append, not_or] at hafter
        exact .inr ⟨⟨before, between, hbefore, hafter.1⟩, hafter.2⟩
  · rintro (⟨before, after, rfl, hafter⟩ | ⟨⟨before, after, rfl, hafter⟩, hmore⟩)
    · exact ⟨events ++ before, after, (List.append_assoc _ _ _).symm, hafter⟩
    · refine ⟨before, after ++ more, List.append_assoc _ _ _, ?_⟩
      rw [List.mem_append, not_or]
      exact ⟨hafter, hmore⟩

/-- Behind a reading it does not matter what happened before. -/
theorem undoable_append_of_read (events : List Event) {more : List Event} (h : .read ∈ more) :
    Undoable (events ++ more) ↔ Undoable more := by
  refine (undoable_append events more).trans ⟨?_, .inl⟩
  rintro (hmore | ⟨-, hundo⟩)
  · exact hmore
  · obtain ⟨before, after, rfl⟩ := List.append_of_mem h
    rw [List.mem_append, List.mem_cons, not_or, not_or] at hundo
    exact ⟨before, after, rfl, hundo.2.2⟩

/-- Only a reading can be undone. -/
theorem undoable_singleton (e : Event) : Undoable [e] ↔ e = .read := by
  constructor
  · rintro ⟨before, after, h, -⟩
    have hmem : .read ∈ before ++ .read :: after := List.mem_append_right _ List.mem_cons_self
    rw [← h, List.mem_singleton] at hmem
    exact hmem.symm
  · rintro rfl
    exact ⟨[], [], rfl, List.not_mem_nil⟩

/-- Behind a reading and no other there is something to undo until it is undone. -/
theorem undoable_read_cons {after : List Event} (h : .read ∉ after) :
    Undoable (.read :: after) ↔ .undo ∉ after := by
  have hread := (undoable_singleton .read).mpr rfl
  refine (undoable_append [.read] after).trans ⟨?_, fun hundo => .inr ⟨hread, hundo⟩⟩
  rintro (⟨before, rest, rfl, -⟩ | ⟨-, hundo⟩)
  · exact absurd (List.mem_append_right _ List.mem_cons_self) h
  · exact hundo

/-! ## Readings of the machine -/

namespace Scanner

/-- A ruling undoes exactly when it puts back what was read. -/
theorem undo_mem_rulingEvents (sc : Scanner) (ruling : Ruling) :
    .undo ∈ sc.read.2.rulingEvents ruling ↔ ruling.putsBack = true := by
  have hquiet : .undo ∉ (sc.read.2.ruled ruling).verdictEvents ruling.verdict := by
    unfold verdictEvents
    split
    · split <;> simp
    · exact List.not_mem_nil
  rw [rulingEvents, undoEvent_read, List.mem_append, or_iff_left hquiet]
  split <;> simp_all

/-- After a pass its reading can be undone unless the pass has done so. -/
theorem undoable_passEvents (sc : Scanner) (state : State) :
    Undoable (sc.passEvents state) ↔ (state.ruling sc.read.1).putsBack = false := by
  have hread : .read ∉ sc.read.2.rulingEvents (state.ruling sc.read.1) := by
    intro hread
    rcases mem_rulingEvents hread with h | ⟨m, h⟩ <;> cases h
  rw [passEvents_eq, undoable_read_cons hread, undo_mem_rulingEvents, Bool.not_eq_true]

/-- Behind a ruling a reading can be undone unless it was. -/
theorem checkpoint_read (sc : Scanner) (ruling : Ruling) :
    (sc.read.2.ruled ruling).checkpoint.isSome ↔ ruling.putsBack = false := by
  have hread : sc.read.2.checkpoint = some sc.next := by
    unfold read
    split <;> rfl
  unfold ruled
  split
  · simp_all [undo]
  · simp_all

/-- A token that is emitted keeps what can be undone. -/
theorem checkpoint_carryOut {sc sc' : Scanner} {verdict : Verdict} {token : Token}
    (h : sc.carryOut verdict = .ends (.emit token sc')) : sc'.checkpoint = sc.checkpoint := by
  cases verdict with
  | immediate base =>
    rw [carryOut, emitImmediate] at h
    split at h <;> cases h <;> rfl
  | emit kind => cases h; rfl
  | fail fault => cases h; rfl
  | sourceDropped => cases h; rfl
  | again => cases h
  | goto state => cases h
  | lineDropped => cases h

/-- No token comes without a reading. -/
theorem read_mem_course (state : State) (sc : Scanner) : .read ∈ (course state sc).events := by
  have hpass : ∀ (state : State) (sc : Scanner), .read ∈ sc.passEvents state :=
    fun _ _ => List.mem_cons_self
  rw [course]
  split
  · exact List.mem_append_left _ (hpass state sc)
  · exact List.mem_append_left _ (List.mem_append_left _ (hpass state sc))
  · exact hpass state sc

/-- After a course the scanner knows whether a reading can be undone. -/
theorem undoable_course (state : State) (sc : Scanner) :
    Undoable (course state sc).events ↔ (course state sc).result.2.checkpoint.isSome := by
  fun_induction course state sc with
  | case1 state sc sc' hpass ih =>
    exact (undoable_append_of_read _ (read_mem_course state sc')).trans ih
  | case2 state sc state' sc' hpass ih =>
    exact (undoable_append_of_read _ (read_mem_course state' sc')).trans ih
  | case3 state sc token sc' hpass =>
    rw [undoable_passEvents, checkpoint_carryOut ((pass_eq sc state).symm.trans hpass),
      checkpoint_read]

/-- Behind a token, the log tells whether the machine has left a reading to undo. -/
theorem undoable_pullCourse (sc : Scanner) (events : List Event) :
    Undoable (events ++ sc.pullCourse.events) ↔ sc.pull.2.checkpoint.isSome := by
  have hread : .read ∈ sc.pullCourse.events :=
    List.mem_append_right _ (read_mem_course sc.resume sc)
  rw [undoable_append_of_read _ hread, ← result_pullCourse]
  exact (undoable_append_of_read _ (read_mem_course sc.resume sc)).trans
    (undoable_course sc.resume sc)

end Scanner

/-! ## Requests -/

section

variable {s : Session}

/-- A reading by hand fails exactly at a malformed byte. -/
theorem Session.read_fails_iff {e : SessionError} :
    s.read.1 = .error e ↔
      ∃ byte, e = .invalidByte byte ∧ s.scanner.next.rest.head? = some (.malformed byte) := by
  unfold Session.read Scanner.read
  cases s.scanner.next.rest with
  | nil => simp
  | cons symbol rest =>
    cases symbol with
    | char c => simp
    | malformed byte =>
      constructor
      · rintro ⟨⟩
        exact ⟨byte, rfl, rfl⟩
      · rintro ⟨_, rfl, ⟨⟩⟩
        rfl

/-- An undoing by hand fails exactly where nothing can be undone. -/
theorem Session.unread_fails_iff {e : SessionError} :
    s.unread.1 = .error e ↔ e = .nothingToUndo ∧ ¬ s.scanner.checkpoint.isSome = true := by
  unfold Session.unread
  split
  · simp_all
  · rw [and_iff_left ‹_›]
    constructor
    · rintro ⟨⟩
      rfl
    · rintro rfl
      rfl

/-- A scan fails exactly when the session is closed. -/
theorem Session.scan_fails_iff {e : SessionError} :
    s.scan.1 = .error e ↔ e = .closed ∧ s.closed = true := by
  cases hclosed : s.closed with
  | true => simp [Session.scan_of_closed hclosed, eq_comm]
  | false =>
    cases hended : s.ended with
    | none => simp [Session.scan_of_running hclosed hended]
    | some last => simp [Session.scan_of_ended hclosed hended]

/-- A live iterator fails exactly when a scan would, and no other fails. -/
theorem Session.iterator_fails_iff {iterator : Session.Iterator} {e : SessionError} :
    (iterator.next s).1 = .error e ↔ iterator = .live ∧ s.scan.1 = .error e := by
  cases iterator with
  | finished => simp [Session.Iterator.next]
  | live =>
    rw [Session.Iterator.next_live]
    cases s.scan.1 <;> simp

/-- The log of a scan tells whether a reading can be undone after it. -/
theorem undoable_scan {events : List Event}
    (h : Undoable events ↔ s.scanner.checkpoint.isSome) :
    Undoable (events ++ s.scanEvents) ↔ s.scan.2.scanner.checkpoint.isSome := by
  unfold Session.scanEvents
  cases hclosed : s.closed with
  | true =>
    rw [Session.scan_of_closed hclosed, if_pos (.inl rfl), List.append_nil]
    exact h
  | false =>
    cases hended : s.ended with
    | some last =>
      rw [Session.scan_of_ended hclosed hended, if_pos (.inr rfl), List.append_nil]
      exact h
    | none =>
      rw [Session.scan_of_running hclosed hended, if_neg (by simp)]
      exact Scanner.undoable_pullCourse s.scanner events

/-- A session that has not ended has handed out no token that ends the source. -/
theorem running_scan (h : s.scan.2.ended = none) :
    s.ended = none ∧ ∀ t ∈ s.scan.1.toOption, t.kind ≠ .endOfFile := by
  cases hclosed : s.closed with
  | true =>
    rw [Session.scan_of_closed hclosed] at h ⊢
    exact ⟨h, by simp [Except.toOption]⟩
  | false =>
    cases hended : s.ended with
    | some last =>
      rw [Session.scan_of_ended hclosed hended, hended] at h
      cases h
    | none =>
      rw [Session.scan_of_running hclosed hended] at h ⊢
      refine ⟨rfl, ?_⟩
      intro t ht hkind
      cases ht
      rw [if_pos hkind] at h
      cases h

end

section

variable {d : Desk} {request : Request}

/-- A session that has not ended behind a request had not ended before it. -/
theorem running_serve (h : (d.serve request).2.session.ended = none) :
    d.session.ended = none ∧ ∀ t ∈ (d.serve request).1.token?, t.kind ≠ .endOfFile := by
  by_cases hasks : d.Asks request
  · rw [(Desk.serve_of_asks hasks).1] at h
    rw [(Desk.serve_of_asks hasks).2]
    exact running_scan h
  · rw [(Desk.serve_of_not_asks hasks).2] at h
    rw [(Desk.serve_of_not_asks hasks).1]
    refine ⟨?_, by simp⟩
    cases request with
    | unread =>
      simp only [Session.unread] at h
      split at h <;> exact h
    | close => exact h
    | read => exact h
    | scan => exact h
    | item index => exact h
    | iterate => exact h

/-- A request for a token runs the machine, unless the session is closed or has ended. -/
theorem events_of_asks (h : d.Asks request) : d.events request = d.session.scanEvents := by
  rcases h with rfl | ⟨index, rfl, hiterator⟩
  · rfl
  · exact if_pos hiterator

/-- The log of a request tells whether a reading can be undone after it. -/
theorem undoable_serve {events : List Event}
    (h : Undoable events ↔ d.session.scanner.checkpoint.isSome) :
    Undoable (events ++ d.events request) ↔
      (d.serve request).2.session.scanner.checkpoint.isSome := by
  by_cases hasks : d.Asks request
  · rw [events_of_asks hasks, (Desk.serve_of_asks hasks).1]
    exact undoable_scan h
  · rw [(Desk.serve_of_not_asks hasks).2]
    cases request with
    | scan => exact absurd (.inl rfl) hasks
    | item index =>
      have hiterator : ¬ d.iterators[index]? = some .live := fun hlive =>
        hasks (.inr ⟨index, rfl, hlive⟩)
      rw [Desk.events, if_neg hiterator, List.append_nil]
      exact h
    | iterate => rwa [Desk.events, List.append_nil]
    | close => rwa [Desk.events, List.append_nil]
    | read =>
      have hcheckpoint : d.session.read.2.scanner.checkpoint.isSome := by
        simp only [Session.read, Scanner.read]
        split <;> rfl
      exact iff_of_true ⟨events, [], rfl, List.not_mem_nil⟩ hcheckpoint
    | unread =>
      rw [Desk.events, undoable_append, undoable_singleton]
      cases hcheckpoint : d.session.scanner.checkpoint with
      | none => simp [Session.unread, hcheckpoint]
      | some c => simp [Session.unread, Scanner.undo, hcheckpoint]

end

/-! ## Histories -/

section

variable {d : Desk}

/-- A session that has not ended behind a history has never given its last token. -/
theorem running_serveAll {requests : List Request}
    (h : (d.serveAll requests).2.session.ended = none) :
    d.session.ended = none ∧
      ∀ reply ∈ (d.serveAll requests).1, ∀ t ∈ reply.token?, t.kind ≠ .endOfFile := by
  induction requests generalizing d with
  | nil => exact ⟨h, List.forall_mem_nil _⟩
  | cons request more ih =>
    obtain ⟨hended, hmore⟩ := ih h
    obtain ⟨hbefore, htoken⟩ := running_serve hended
    exact ⟨hbefore, List.forall_mem_cons.mpr ⟨htoken, hmore⟩⟩

/-- The log of a history tells whether there is something to undo behind it. -/
theorem undoable_serveAll {events : List Event} (requests : List Request)
    (h : Undoable events ↔ d.session.scanner.checkpoint.isSome) :
    Undoable (events ++ d.log requests) ↔
      (d.serveAll requests).2.session.scanner.checkpoint.isSome := by
  induction requests generalizing d events with
  | nil => rwa [Desk.log, List.append_nil]
  | cons request more ih =>
    rw [Desk.log, ← List.append_assoc]
    exact ih (undoable_serve h)

end

/-- What a session can fail at after a history of requests, given the replies and the log of that
history. -/
structure Session.Safe (source : List UInt8) (requests : List Request) (replies : List Reply)
    (log : List Event) (s : Session) : Prop where
  /-- A scan fails exactly when the session was closed. -/
  scan_fails : ∀ e, s.scan.1 = .error e ↔ e = .closed ∧ .close ∈ requests
  /-- An iterator fails only through a scan. -/
  iterator_fails : ∀ (iterator : Session.Iterator) e,
    (iterator.next s).1 = .error e ↔ iterator = .live ∧ s.scan.1 = .error e
  /-- The machine is run only as long as it has not ended, and it meets no mishap. -/
  scan_runs : .close ∉ requests → s.ended = none →
    (∀ reply ∈ replies, ∀ t ∈ reply.token?, t.kind ≠ .endOfFile) ∧
      s.scan.1 = .ok s.scanner.pullCourse.result.1 ∧
      s.scan.2.scanner = s.scanner.pullCourse.result.2 ∧
      ∀ m, .mishap m ∉ s.scanner.pullCourse.events
  /-- Undoing fails exactly when no reading was made behind the last undoing. -/
  unread_fails : ∀ e, s.unread.1 = .error e ↔ e = .nothingToUndo ∧ ¬ Undoable log
  /-- Reading fails exactly at a malformed byte. -/
  read_fails : ∀ e, s.read.1 = .error e ↔ ∃ byte, e = .invalidByte byte ∧
    Utf8.first? (source.drop s.scanner.next.pos.offset.toNat) = some (.malformed byte)
  /-- A scan, an iterator or an undoing that fails changes nothing in the session. -/
  scan_unchanged : ∀ e, s.scan.1 = .error e → s.scan.2 = s
  iterator_unchanged : ∀ (iterator : Session.Iterator) e,
    (iterator.next s).1 = .error e → (iterator.next s).2.2 = s
  unread_unchanged : ∀ e, s.unread.1 = .error e → s.unread.2 = s
  /-- The places stand in the source, the last reading in front of the next one. -/
  prev_le : s.scanner.prev.pos.offset ≤ s.scanner.next.pos.offset
  next_le : s.scanner.next.pos.offset ≤ source.length
  /-- The next place is not in front of the start by more than one symbol. -/
  start_le : s.scanner.start.pos.offset ≤ s.scanner.next.pos.offset ∨
    ∃ symbol, Utf8.first? (source.drop s.scanner.next.pos.offset.toNat) = some symbol ∧
      s.scanner.start.pos.offset = s.scanner.next.pos.offset + symbol.size

/-- After any history a session fails only for the reasons its caller can see, and its places stay
in the source. -/
theorem serveAll_safe (source : List UInt8) (requests : List Request) :
    let outcome := (Desk.ofSource source).serveAll requests;
    outcome.2.session.Safe source requests outcome.1 ((Desk.ofSource source).log requests) := by
  intro outcome
  -- every field is read off these four facts about the session behind the history
  have haligned : outcome.2.session.scanner.Aligned := by
    have hbegin : (Desk.ofSource source).session.Has Scanner.Aligned :=
      Session.has_ofSource (Scanner.aligned_ofSource source)
    exact (Scanner.aligned_closed.serveAll hbegin requests).2.scanner
  have hin : outcome.2.session.scanner.In source := by
    have hbegin : (Desk.ofSource source).session.Has (Scanner.In source) :=
      Session.has_ofSource Scanner.in_ofSource
    exact (Scanner.in_closed.serveAll hbegin requests).2.scanner
  have hclosed : outcome.2.session.closed = true ↔ .close ∈ requests :=
    ((Desk.ofSource source).closed_serveAll requests).trans (or_iff_right Bool.false_ne_true)
  have hundo : Undoable ((Desk.ofSource source).log requests) ↔
      outcome.2.session.scanner.checkpoint.isSome := by
    have hbegin : Undoable [] ↔ (Desk.ofSource source).session.scanner.checkpoint.isSome :=
      iff_of_false not_undoable_nil Bool.false_ne_true
    exact undoable_serveAll requests hbegin
  constructor
  case scan_fails =>
    intro e
    rw [Session.scan_fails_iff, hclosed]
  case iterator_fails =>
    intro iterator e
    exact Session.iterator_fails_iff
  case scan_runs =>
    intro hclose hended
    have hopen : outcome.2.session.closed = false := by
      rw [← Bool.not_eq_true, hclosed]
      exact hclose
    have hscan := Session.scan_of_running hopen hended
    rw [hscan, Scanner.result_pullCourse]
    exact ⟨(running_serveAll hended).2, rfl, rfl, haligned.no_mishap_pullCourse⟩
  case unread_fails =>
    intro e
    rw [Session.unread_fails_iff, hundo]
  case read_fails =>
    intro e
    rw [hin.next.first?_drop]
    exact Session.read_fails_iff
  case scan_unchanged =>
    intro e he
    rw [Session.scan_of_closed (Session.scan_fails_iff.mp he).2]
  case iterator_unchanged =>
    intro iterator e he
    obtain ⟨rfl, hscan⟩ := Session.iterator_fails_iff.mp he
    rw [Session.Iterator.next_live, Session.scan_of_closed (Session.scan_fails_iff.mp hscan).2]
  case unread_unchanged =>
    intro e he
    rw [Session.unread, if_neg (Session.unread_fails_iff.mp he).2]
  case prev_le => exact haligned.prev_le
  case next_le => exact hin.next.offset_le
  case start_le =>
    rw [hin.next.first?_drop]
    exact haligned.start_le

end AsmLexer

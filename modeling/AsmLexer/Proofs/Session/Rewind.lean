import AsmLexer.Proofs.Scanner.Course
import AsmLexer.Proofs.Session.History

/-!
# A reading that is put back

To read by hand and to put back what was read leaves a session where it was, except that there is
nothing left to put back (`Session.unread_read`). No reading looks at what is left to put back, and
the machine begins every state with a reading, so it hands out the same tokens whether there is
something to put back or not (`Scanner.pull_forget`). Therefore no later request can tell whether
the pair of requests was made, unless it puts back a reading that was made before
(`read_unread_invisible`).
-/

set_option autoImplicit false

namespace AsmLexer

/-! ## Scanners -/

namespace Scanner

/-- The same scanner with no reading to be undone. -/
def forget (sc : Scanner) : Scanner :=
  { sc with checkpoint := none }

/-- A reading does not depend on what could be undone. -/
theorem read_forget (sc : Scanner) : sc.forget.read = sc.read := rfl

/-- Readings in a row do not depend on what could be undone. -/
theorem readWhile_forget (keep : Symbol → Bool) (sc : Scanner) :
    sc.forget.readWhile keep = sc.readWhile keep := rfl

/-- A reading that is undone only forgets what could be undone before. -/
theorem undo_read (sc : Scanner) : sc.read.2.undo = sc.forget := by
  unfold read
  split
  · rfl
  · rfl

/-- Every state begins with a reading, which sets the checkpoint anew. -/
theorem step_forget (state : State) (sc : Scanner) : step state sc.forget = step state sc := by
  cases state with
  | any => simp only [step, stepAny, read_forget]
  | space => simp only [step, stepSpace, readWhile_forget]
  | comment => simp only [step, stepComment, readWhile_forget]
  | afterZero => simp only [step, stepAfterZero, read_forget]
  | digits base => simp only [step, stepDigits, readWhile_forget]
  | word kind => simp only [step, stepWord, readWhile_forget]
  | skipLine => simp only [step, stepSkipLine, readWhile_forget]

/-- A pull does not depend on what could be undone. -/
theorem pull_forget (sc : Scanner) : sc.forget.pull = sc.pull :=
  run_congr (step_forget sc.resume sc)

end Scanner

/-! ## Sessions -/

namespace Session

/-- The same session with no reading to be put back. -/
def forget (s : Session) : Session :=
  { s with scanner := s.scanner.forget }

/-- What was read can be put back, and then the session is where it was. -/
theorem unread_read (s : Session) : s.read.2.unread = (.ok (), s.forget) := by
  have hcheckpoint : s.scanner.read.2.checkpoint.isSome = true := by
    unfold Scanner.read
    split
    · rfl
    · rfl
  have hundo : s.scanner.read.2.undo = s.scanner.forget := s.scanner.undo_read
  simp only [read, unread, hcheckpoint, if_true, hundo]
  rfl

/-- A scan does not depend on what could be undone. -/
theorem scan_forget (s : Session) :
    s.forget.scan.1 = s.scan.1 ∧ s.forget.scan.2.forget = s.scan.2.forget := by
  cases hclosed : s.closed with
  | true =>
    rw [scan_of_closed hclosed, @scan_of_closed s.forget hclosed]
    exact ⟨rfl, rfl⟩
  | false =>
    cases hended : s.ended with
    | some last =>
      rw [scan_of_ended hclosed hended, @scan_of_ended s.forget last hclosed hended]
      exact ⟨rfl, rfl⟩
    | none =>
      have hpull : s.forget.scanner.pull = s.scanner.pull := s.scanner.pull_forget
      rw [scan_of_running hclosed hended, @scan_of_running s.forget hclosed hended, hpull]
      exact ⟨rfl, rfl⟩

end Session

/-! ## Requests -/

/-- Requests among which every undoing has a reading in front of it. -/
def ReadsBeforeUndoing (requests : List Request) : Prop :=
  ∀ before after, requests = before ++ .unread :: after → .read ∈ before

/-- A request in front that is no reading is no undoing either. -/
theorem ReadsBeforeUndoing.of_cons {request : Request} {more : List Request}
    (h : ReadsBeforeUndoing (request :: more)) (hread : request ≠ .read) :
    request ≠ .unread ∧ ReadsBeforeUndoing more := by
  constructor
  · rintro rfl
    exact absurd (h [] more rfl) List.not_mem_nil
  · rintro before after rfl
    have hmem := h (request :: before) after rfl
    exact (List.mem_cons.mp hmem).resolve_left hread.symm

namespace Desk

/-- The same desk with no reading to be put back. -/
def forget (d : Desk) : Desk :=
  { d with session := d.session.forget }

section

variable {d e : Desk} {request : Request}

/-- A reading does not depend on what could be put back in front of it. -/
theorem serve_read_forget (d : Desk) : d.forget.serve .read = d.serve .read := rfl

/-- Nothing can be put back twice. -/
theorem serve_unread_forget (d : Desk) :
    d.forget.serve .unread = (.undone (.error .nothingToUndo), d.forget) := rfl

/-- No request but an undoing depends on what can be put back. -/
theorem serve_forget (h : request ≠ .unread) :
    (d.forget.serve request).1 = (d.serve request).1 ∧
      (d.forget.serve request).2.forget = (d.serve request).2.forget := by
  obtain ⟨hresult, hsession⟩ := d.session.scan_forget
  cases request with
  | scan =>
    refine ⟨congrArg Reply.token hresult, ?_⟩
    exact congrArg (Desk.mk · d.iterators) hsession
  | item index =>
    cases hiterator : d.iterators[index]? with
    | none =>
      rw [serve_item_of_none hiterator, @serve_item_of_none d.forget index hiterator]
      exact ⟨rfl, rfl⟩
    | some iterator =>
      rw [serve_item_of_some hiterator, @serve_item_of_some d.forget index iterator hiterator]
      cases iterator with
      | finished => exact ⟨rfl, rfl⟩
      | live =>
        have hscan : d.forget.session.scan.1 = d.session.scan.1 := hresult
        have hlater : d.forget.session.scan.2.forget = d.session.scan.2.forget := hsession
        rw [Session.Iterator.next_live, Session.Iterator.next_live, hscan]
        cases d.session.scan.1 with
        | error e => exact ⟨rfl, congrArg (Desk.mk · _) hlater⟩
        | ok t => exact ⟨rfl, congrArg (Desk.mk · _) hlater⟩
  | iterate => exact ⟨rfl, rfl⟩
  | close => exact ⟨rfl, rfl⟩
  | read => exact ⟨rfl, rfl⟩
  | unread => exact absurd rfl h

/-- Desks that differ in what could be undone serve any other request alike. -/
theorem serve_congr (hdesks : d.forget = e.forget) (h : request ≠ .unread) :
    (d.serve request).1 = (e.serve request).1 ∧
      (d.serve request).2.forget = (e.serve request).2.forget := by
  obtain ⟨hreply, hlater⟩ := serve_forget (d := d) h
  obtain ⟨hreply', hlater'⟩ := serve_forget (d := e) h
  rw [← hreply, ← hlater, hdesks]
  exact ⟨hreply', hlater'⟩

/-- Two desks that differ only in what can be put back give the same replies, as long as nothing is
put back that was read before. -/
theorem serveAll_congr {more : List Request} (hdesks : d.forget = e.forget)
    (hmore : ReadsBeforeUndoing more) :
    (d.serveAll more).1 = (e.serveAll more).1 ∧
      (d.serveAll more).2.forget = (e.serveAll more).2.forget := by
  induction more generalizing d e with
  | nil => exact ⟨rfl, hdesks⟩
  | cons request more ih =>
    by_cases hread : request = .read
    · -- from here on the desks are the same
      have hsame : d.serve .read = e.serve .read := by
        rw [← serve_read_forget d, ← serve_read_forget e, hdesks]
      rw [hread, serveAll_cons, serveAll_cons, hsame]
      exact ⟨rfl, rfl⟩
    · obtain ⟨hunread, hlater⟩ := hmore.of_cons hread
      obtain ⟨hreply, hforget⟩ := serve_congr hdesks hunread
      obtain ⟨hreplies, hlast⟩ := ih hforget hlater
      rw [serveAll_cons, serveAll_cons, hreply, hreplies]
      exact ⟨rfl, hlast⟩

end

/-- The desk on which something was read and put back. -/
theorem serveAll_read_unread (d : Desk) :
    d.serveAll [.read, .unread] = ([.char d.session.read.1, .undone (.ok ())], d.forget) := by
  have hunread := d.session.unread_read
  rw [serveAll_cons, serveAll_cons]
  show ([_, Reply.undone d.session.read.2.unread.1], Desk.mk d.session.read.2.unread.2 _) = _
  rw [hunread]
  rfl

end Desk

/-- Whatever happened at a desk before, to read and to put back what was read leaves it as it was,
but for what can still be put back. The next reading is the same, a second undoing fails and changes
nothing, and later requests are given the same replies. -/
theorem read_unread_invisible (d : Desk) :
    let rewound := (d.serveAll [.read, .unread]).2;
    (d.serveAll [.read, .unread]).1 = [.char d.session.read.1, .undone (.ok ())] ∧
    rewound = { d with session := { d.session with
      scanner := { d.session.scanner with checkpoint := none } } } ∧
    rewound.serve .read = d.serve .read ∧
    rewound.serve .unread = (.undone (.error .nothingToUndo), rewound) ∧
    ∀ more, ReadsBeforeUndoing more →
      (rewound.serveAll more).1 = (d.serveAll more).1 ∧
      (rewound.serveAll more).2.forget = (d.serveAll more).2.forget := by
  intro rewound
  have hrewound : rewound = d.forget := congrArg Prod.snd d.serveAll_read_unread
  have hforget : rewound.forget = d.forget := by
    rw [hrewound]
    rfl
  refine ⟨congrArg Prod.fst d.serveAll_read_unread, hrewound, ?_, ?_, ?_⟩
  · rw [hrewound, Desk.serve_read_forget]
  · rw [hrewound, Desk.serve_unread_forget]
  · intro more hmore
    exact Desk.serveAll_congr hforget hmore

/-- A dollar sign has been scanned, and the letter behind it is read and put back, before its line
is dropped. -/
theorem read_unread_invisible_dollar :
    let d := ((Desk.ofSource [0x24, 0x61, 0x0A]).serveAll [.scan]).2;
    let more : List Request := [.scan, .read, .unread, .scan];
    ReadsBeforeUndoing more ∧
      ((d.serveAll [.read, .unread]).2.serveAll more).1 = (d.serveAll more).1 := by
  intro d more
  have hmore : ReadsBeforeUndoing [.scan, .read, .unread, .scan] := by
    rintro (_ | ⟨first, _ | ⟨second, before⟩⟩) after h
    · cases h
    · cases h
    · obtain ⟨-, hmore⟩ := List.cons.inj h
      obtain ⟨rfl, -⟩ := List.cons.inj hmore
      exact List.mem_cons_of_mem _ List.mem_cons_self
  obtain ⟨-, -, -, -, hsame⟩ := read_unread_invisible d
  exact ⟨hmore, (hsame more hmore).1⟩

end AsmLexer

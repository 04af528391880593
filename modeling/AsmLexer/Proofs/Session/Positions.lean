import AsmLexer.Proofs.Session.Invariant
import AsmLexer.Proofs.Walk

/-!
# Positions stay exact

A place is reached in a source if some symbols with which the source begins lie in front of it. The
places of a scanner are reached at the beginning, and no move of a scanner leaves the reached places
(`Scanner.in_closed`). Since reached places are exact, the places of a scanner are so after every
history of a session, and so are those of the tokens (`serveAll_positions_exact`).
-/

set_option autoImplicit false

namespace AsmLexer

variable {source : List UInt8}

/-- A place behind some symbols with which a source begins. -/
def Reached (source : List UInt8) (pos : Position) : Prop :=
  ∃ before after, Utf8.symbols source = before ++ after ∧ pos = Position.origin.afterAll before

/-- A cursor that stands at a reached place of a source, in front of the symbols behind it. -/
def Cursor.In (source : List UInt8) (c : Cursor) : Prop :=
  ∃ before, Utf8.symbols source = before ++ c.rest ∧ c.pos = Position.origin.afterAll before

/-- A scanner all of whose places are reached. -/
structure Scanner.In (source : List UInt8) (sc : Scanner) : Prop where
  start : sc.start.In source
  next : sc.next.In source
  checkpoint : ∀ c ∈ sc.checkpoint, c.In source

/-! ## Cursors -/

/-- Where a cursor stands is reached. -/
theorem Cursor.In.reached {c : Cursor} (h : c.In source) : Reached source c.pos := by
  obtain ⟨before, hsource, hpos⟩ := h
  exact ⟨before, c.rest, hsource, hpos⟩

/-- The beginning of a source is in it. -/
theorem Cursor.in_start : (Cursor.start source).In source :=
  ⟨[], rfl, rfl⟩

/-- A symbol further on is in the source, too. -/
theorem Cursor.In.after {pos : Position} {s : Symbol} {rest : List Symbol}
    (h : Cursor.In source ⟨pos, s :: rest⟩) : Cursor.In source ⟨pos.after s, rest⟩ := by
  obtain ⟨before, hsource, hpos⟩ := h
  refine ⟨before ++ [s], ?_, ?_⟩
  · rw [hsource, List.append_assoc]
    rfl
  · rw [Position.afterAll_append, ← hpos]
    rfl

/-- The symbol in front of which a cursor stands is the one that is read at its offset. -/
theorem Cursor.In.first?_drop {c : Cursor} (h : c.In source) :
    Utf8.first? (source.drop c.pos.offset.toNat) = c.rest.head? := by
  obtain ⟨before, hsource, hpos⟩ := h
  rw [hpos, Position.offset_origin_afterAll, Int.toNat_natCast, first?_drop_of_symbols hsource]

/-- No cursor stands behind the end of its source. -/
theorem Cursor.In.offset_le {c : Cursor} (h : c.In source) :
    c.pos.offset ≤ source.length := by
  obtain ⟨before, hsource, hpos⟩ := h
  have hlength := congrArg List.length (Utf8.bytes_symbols source)
  rw [hsource, List.flatMap_append, List.length_append] at hlength
  rw [hpos, Position.offset_origin_afterAll]
  omega

/-! ## Scanners -/

namespace Scanner

/-- Before its first token all places of a scanner are reached. -/
theorem in_ofSource : (Scanner.ofSource source).In source where
  start := Cursor.in_start
  next := Cursor.in_start
  checkpoint := by
    intro c hc
    cases hc

/-- The place to which an undo would go back is reached. -/
theorem In.prev {sc : Scanner} (h : sc.In source) : sc.prev.In source := by
  unfold Scanner.prev
  cases hcheckpoint : sc.checkpoint with
  | none => exact h.next
  | some c => exact h.checkpoint c hcheckpoint

/-- A reading leads to a reached place. -/
theorem In.read {sc : Scanner} (h : sc.In source) : sc.read.2.In source := by
  have hcheckpoint : ∀ c ∈ some sc.next, c.In source := by
    intro c hc
    cases hc
    exact h.next
  unfold Scanner.read
  split
  · exact ⟨h.start, h.next, hcheckpoint⟩
  · rename_i s rest hrest
    have hnext : Cursor.In source ⟨sc.next.pos, s :: rest⟩ := by
      rw [← hrest]
      exact h.next
    exact ⟨h.start, hnext.after, hcheckpoint⟩

/-- No move leaves the reached places. -/
theorem in_closed : Closed (Scanner.In source) where
  read := In.read
  undo h := by
    refine ⟨h.start, h.prev, ?_⟩
    intro c hc
    cases hc
  settle _ h := ⟨h.next, h.next, h.checkpoint⟩

/-- A token points to a reached place. -/
theorem Marks.reached {pos : Position} (h : Marks (Scanner.In source) pos) :
    Reached source pos := by
  obtain ⟨sc, hin, rfl | rfl⟩ := h
  · exact hin.start.reached
  · exact hin.prev.reached

end Scanner

/-! ## Exact places -/

/-- A place that is exact, and that counts characters if its source is an encoded text. -/
def Position.Faithful (source : List UInt8) (p : Position) : Prop :=
  p.Exact source ∧ ∀ cs, source = Utf8.encode cs → p.CountsIn cs

/-- A reached place is faithful to its source. -/
theorem Reached.faithful {p : Position} (h : Reached source p) : p.Faithful source := by
  obtain ⟨before, after, hsource, rfl⟩ := h
  refine ⟨exact_afterAll hsource, ?_⟩
  rintro cs rfl
  exact countsIn_afterAll hsource

/-- After any history of a session, the three places of its scanner and the places of all tokens
that were handed out are exact. -/
theorem serveAll_positions_exact (source : List UInt8) (requests : List Request) :
    let outcome := (Desk.ofSource source).serveAll requests
    let scanner := outcome.2.session.scanner
    scanner.start.pos.Faithful source ∧ scanner.next.pos.Faithful source ∧
      scanner.prev.pos.Faithful source ∧
      ∀ reply ∈ outcome.1, ∀ t ∈ reply.token?, t.pos.Faithful source := by
  intro outcome scanner
  have hbegin : (Desk.ofSource source).session.Has (Scanner.In source) :=
    Session.has_ofSource Scanner.in_ofSource
  obtain ⟨htokens, hsession⟩ := Scanner.in_closed.serveAll hbegin requests
  have hscanner := hsession.scanner
  refine ⟨hscanner.start.reached.faithful, hscanner.next.reached.faithful,
    hscanner.prev.reached.faithful, ?_⟩
  intro reply hreply t ht
  exact (htokens reply hreply t ht).reached.faithful

end AsmLexer

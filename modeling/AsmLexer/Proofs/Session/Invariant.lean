import AsmLexer.Proofs.Scanner.Moves
import AsmLexer.Proofs.Session.History

/-!
# Invariants of a session

A property that every move of a scanner keeps holds of the scanner of a session after any history,
if it holds at the beginning, and every token that is handed out points to a place of a scanner with
that property (`Scanner.Closed.serveAll`).
-/

set_option autoImplicit false

namespace AsmLexer

open Scanner (Closed Marks)

variable {P : Scanner → Prop}

/-- A session whose scanner has a property, and had it where the session ended. -/
structure Session.Has (P : Scanner → Prop) (s : Session) : Prop where
  scanner : P s.scanner
  ended : ∀ t ∈ s.ended, Marks P t.pos

/-- A session begins with the property if its scanner does. -/
theorem Session.has_ofSource {source : List UInt8} (h : P (.ofSource source)) :
    (ofSource source).Has P := by
  refine ⟨h, ?_⟩
  intro t ht
  cases ht

namespace Scanner.Closed

section

variable {s : Session} (hP : Closed P)

include hP

/-- A scan keeps the property and points to one of its places. -/
theorem scan (h : s.Has P) :
    (∀ t, s.scan.1 = .ok t → Marks P t.pos) ∧ s.scan.2.Has P := by
  unfold Session.scan
  split
  · exact ⟨by simp, h⟩
  split
  · rename_i token hended
    -- the token that ended the session was marked when it was handed out first
    refine ⟨?_, h⟩
    intro t ht
    cases ht
    exact h.ended token hended
  · obtain ⟨hpos, hscanner⟩ := hP.pull h.scanner
    refine ⟨?_, hscanner, ?_⟩
    · intro t ht
      cases ht
      exact hpos
    · intro t ht
      dsimp only at ht
      split at ht
      · cases ht
        exact hpos
      · cases ht

/-- An undoing keeps the property. -/
theorem unread (h : s.Has P) : s.unread.2.Has P := by
  unfold Session.unread
  split
  · exact ⟨hP.undo h.scanner, h.ended⟩
  · exact h

/-- Serving a request keeps the property and points to one of its places. -/
theorem serve {d : Desk} (h : d.session.Has P) (request : Request) :
    (∀ t ∈ (d.serve request).1.token?, Marks P t.pos) ∧ (d.serve request).2.session.Has P := by
  by_cases hasks : d.Asks request
  · obtain ⟨hserved, htoken⟩ := Desk.serve_of_asks hasks
    obtain ⟨hpos, hscanned⟩ := hP.scan h
    rw [hserved, htoken]
    refine ⟨?_, hscanned⟩
    intro t ht
    apply hpos
    cases hresult : d.session.scan.1 with
    | error e => simp [hresult, Except.toOption] at ht
    | ok token =>
      rw [hresult] at ht
      exact congrArg Except.ok (Option.some.inj ht)
  · obtain ⟨htoken, hserved⟩ := Desk.serve_of_not_asks hasks
    rw [hserved, htoken]
    refine ⟨by simp, ?_⟩
    cases request with
    | close => exact ⟨h.scanner, h.ended⟩
    | read => exact ⟨hP.read h.scanner, h.ended⟩
    | unread => exact hP.unread h
    | scan => exact h
    | item index => exact h
    | iterate => exact h

end

/-- A property that is kept by the moves is kept through every history. -/
theorem serveAll (hP : Closed P) {d : Desk} (h : d.session.Has P) (requests : List Request) :
    (∀ reply ∈ (d.serveAll requests).1, ∀ t ∈ reply.token?, Marks P t.pos) ∧
      (d.serveAll requests).2.session.Has P := by
  induction requests generalizing d with
  | nil => exact ⟨by simp [Desk.serveAll], h⟩
  | cons request more ih =>
    obtain ⟨hpos, hsession⟩ := hP.serve h request
    obtain ⟨hmore, hlast⟩ := ih hsession
    refine ⟨?_, hlast⟩
    intro reply hreply
    rcases List.mem_cons.mp hreply with rfl | hreply
    · exact hpos
    · exact hmore reply hreply

end Scanner.Closed

end AsmLexer

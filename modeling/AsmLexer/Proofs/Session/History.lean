import AsmLexer.Session

/-!
# Histories of a session

A desk is a session with the iterators that its callers have made of it. A request is one operation
of one caller, and a history is any list of requests. Callers share the session, so what a request
does depends on all requests before it.
-/

set_option autoImplicit false

namespace AsmLexer

/-- What a caller may ask for. -/
inductive Request where
  | scan
  | iterate
  /-- The next item of an iterator, by the order in which they were made. -/
  | item (index : Nat)
  | close
  | read
  | unread
deriving DecidableEq

/-- What a caller is given. -/
inductive Reply where
  | token (result : Except SessionError Token)
  | item (result : Except SessionError (Option Token))
  | char (result : Except SessionError (Option Char))
  | undone (result : Except SessionError Unit)
  /-- Nothing was asked for that has an answer. -/
  | silent

/-- The token that was handed out with a reply. -/
def Reply.token? : Reply → Option Token
  | .token (.ok t) => some t
  | .item (.ok result) => result
  | _ => none

/-- A session and the iterators that were made of it. -/
structure Desk where
  session : Session
  iterators : List Session.Iterator

namespace Session

section

variable {s : Session}

/-- A session that is open and has not ended asks its machine. -/
theorem scan_of_running (hopen : s.closed = false) (hended : s.ended = none) :
    s.scan = (.ok s.scanner.pull.1, { s with
      scanner := s.scanner.pull.2
      ended := if s.scanner.pull.1.kind = .endOfFile then some s.scanner.pull.1 else none }) := by
  simp only [scan, hopen, hended, Bool.false_eq_true, if_false]

/-- Behind the end of the source a scan gives the last token again. -/
theorem scan_of_ended {last : Token} (hopen : s.closed = false) (hended : s.ended = some last) :
    s.scan = (.ok last, s) := by
  simp only [scan, hopen, hended, Bool.false_eq_true, if_false]

/-- A scan of a closed session fails. -/
theorem scan_of_closed (hclosed : s.closed = true) : s.scan = (.error .closed, s) := by
  rw [scan, if_pos hclosed]

/-- Only closing closes a session. -/
theorem closed_scan (s : Session) : s.scan.2.closed = s.closed := by
  cases hclosed : s.closed with
  | true => rw [scan_of_closed hclosed, hclosed]
  | false =>
    cases hended : s.ended with
    | none => rw [scan_of_running hclosed hended, hclosed]
    | some last => rw [scan_of_ended hclosed hended, hclosed]

end

/-- An iterator that is live gives what a scan does. -/
theorem Iterator.next_live (s : Session) :
    Iterator.live.next s = match s.scan.1 with
      | .error e => (.error e, .finished, s.scan.2)
      | .ok token =>
        (.ok (some token), if token.kind = .endOfFile then .finished else .live, s.scan.2) := by
  unfold next
  cases s.scan with
  | mk result s' => cases result <;> rfl

end Session

namespace Desk

/-- A session at the beginning of a source, before any iterator is made. -/
def ofSource (source : List UInt8) : Desk :=
  ⟨.ofSource source, []⟩

/-- Serves one request. -/
def serve (d : Desk) : Request → Reply × Desk
  | .scan =>
    let (result, session) := d.session.scan
    (.token result, { d with session })
  | .iterate => (.silent, { d with iterators := d.iterators ++ [.live] })
  | .item index =>
    match d.iterators[index]? with
    | none => (.silent, d)
    | some iterator =>
      let (result, iterator, session) := iterator.next d.session
      (.item result, ⟨session, d.iterators.set index iterator⟩)
  | .close => (.silent, { d with session := d.session.close })
  | .read =>
    let (result, session) := d.session.read
    (.char result, { d with session })
  | .unread =>
    let (result, session) := d.session.unread
    (.undone result, { d with session })

/-- Nothing happens where there is no iterator. -/
theorem serve_item_of_none {d : Desk} {index : Nat} (h : d.iterators[index]? = none) :
    d.serve (.item index) = (.silent, d) := by
  simp only [serve, h]

/-- An iterator is asked for its next item and takes the place of what it was. -/
theorem serve_item_of_some {d : Desk} {index : Nat} {iterator : Session.Iterator}
    (h : d.iterators[index]? = some iterator) :
    d.serve (.item index) = (.item (iterator.next d.session).1,
      ⟨(iterator.next d.session).2.2, d.iterators.set index (iterator.next d.session).2.1⟩) := by
  simp only [serve, h]

/-- A request that asks for a token: a scan, or the next item of an iterator that is live. -/
def Asks (d : Desk) (request : Request) : Prop :=
  request = .scan ∨ ∃ index, request = .item index ∧ d.iterators[index]? = some .live

/-- A request that asks for a token is served by a scan. -/
theorem serve_of_asks {d : Desk} {request : Request} (h : d.Asks request) :
    (d.serve request).2.session = d.session.scan.2 ∧
      (d.serve request).1.token? = d.session.scan.1.toOption := by
  rcases h with rfl | ⟨index, rfl, hiterator⟩
  · refine ⟨rfl, ?_⟩
    unfold serve Reply.token?
    cases d.session.scan with
    | mk result s => cases result <;> rfl
  · rw [serve_item_of_some hiterator, Session.Iterator.next_live]
    cases d.session.scan with
    | mk result s => cases result <;> exact ⟨rfl, rfl⟩

/-- No other request hands out a token or moves the machine of the session, except for readings and
undoings. -/
theorem serve_of_not_asks {d : Desk} {request : Request} (h : ¬ d.Asks request) :
    (d.serve request).1.token? = none ∧
      (d.serve request).2.session = match request with
        | .close => d.session.close
        | .read => d.session.read.2
        | .unread => d.session.unread.2
        | _ => d.session := by
  cases request with
  | scan => exact absurd (.inl rfl) h
  | item index =>
    cases hiterator : d.iterators[index]? with
    | none =>
      rw [serve_item_of_none hiterator]
      exact ⟨rfl, rfl⟩
    | some iterator =>
      cases iterator with
      | live => exact absurd (.inr ⟨index, rfl, hiterator⟩) h
      | finished =>
        rw [serve_item_of_some hiterator]
        exact ⟨rfl, rfl⟩
  | iterate => exact ⟨rfl, rfl⟩
  | close => exact ⟨rfl, rfl⟩
  | read => exact ⟨rfl, rfl⟩
  | unread => exact ⟨rfl, rfl⟩

/-- Only the request to close a session closes it. -/
theorem closed_serve (d : Desk) (request : Request) :
    (d.serve request).2.session.closed = true ↔ d.session.closed = true ∨ request = .close := by
  by_cases hasks : d.Asks request
  · have hclose : request ≠ .close := by
      rintro rfl
      rcases hasks with h | ⟨index, h, -⟩ <;> cases h
    rw [(serve_of_asks hasks).1, Session.closed_scan, or_iff_left hclose]
  · rw [(serve_of_not_asks hasks).2]
    cases request with
    | close => simp [Session.close]
    | read => simp [Session.read]
    | unread => simp only [Session.unread]; split <;> simp
    | scan => simp
    | item index => simp
    | iterate => simp

/-- Serves the requests of a history in order. -/
def serveAll (d : Desk) : List Request → List Reply × Desk
  | [] => ([], d)
  | request :: more =>
    let (reply, d) := d.serve request
    let (replies, d) := d.serveAll more
    (reply :: replies, d)

/-- A history is its first request and then the others. -/
theorem serveAll_cons (d : Desk) (request : Request) (more : List Request) :
    d.serveAll (request :: more) =
      ((d.serve request).1 :: ((d.serve request).2.serveAll more).1,
        ((d.serve request).2.serveAll more).2) := rfl

/-- A history can be cut anywhere. -/
theorem serveAll_append (d : Desk) (requests more : List Request) :
    d.serveAll (requests ++ more) =
      ((d.serveAll requests).1 ++ ((d.serveAll requests).2.serveAll more).1,
        ((d.serveAll requests).2.serveAll more).2) := by
  induction requests generalizing d with
  | nil => rfl
  | cons request requests ih =>
    rw [List.cons_append, serveAll_cons, serveAll_cons, ih, List.cons_append]

/-- A session is closed once a history has closed it. -/
theorem closed_serveAll (d : Desk) (requests : List Request) :
    (d.serveAll requests).2.session.closed = true ↔
      d.session.closed = true ∨ .close ∈ requests := by
  induction requests generalizing d with
  | nil => simp [serveAll]
  | cons request more ih =>
    have hclose : .close ∈ request :: more ↔ request = .close ∨ .close ∈ more := by
      rw [List.mem_cons, eq_comm]
    rw [serveAll_cons, ih, closed_serve, hclose, or_assoc]

end Desk

end AsmLexer

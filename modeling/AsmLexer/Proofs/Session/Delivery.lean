import AsmLexer.Proofs.LineComposition
import AsmLexer.Proofs.Session.History

/-!
# Sessions deliver the tokens of their source

Whoever asks a session for a token, by a scan or by an iterator, takes it from the same sequence:
the tokens of the source in order, and then the token that ends the source again and again
(`delivery`). While a session is open and nobody reads by hand, it stands at a place of this
sequence (`Session.At`), and each request that asks for a token takes it one further
(`Session.At.scan`). Once the session is closed nothing is delivered any more
(`serveAll_delivers`).
-/

set_option autoImplicit false

namespace AsmLexer

/-- The tokens that were handed out with some replies. -/
def handedOut (replies : List Reply) : List Token :=
  replies.filterMap Reply.token?

/-- The token that a session of a source delivers after so many others. -/
def delivery (source : List UInt8) (count : Nat) : Option Token :=
  (tokenize source)[min count ((tokenize source).length - 1)]?

/-- An open session that has delivered so many tokens. -/
inductive Session.At (source : List UInt8) (count : Nat) (s : Session) : Prop where
  | running : s.closed = false → s.ended = none →
    s.scanner.drain.1 = (tokenize source).drop count → At source count s
  | ended {last : Token} : s.closed = false → s.ended = some last →
    (tokenize source).getLast? = some last → (tokenize source).length ≤ count → At source count s

section

variable {source : List UInt8} {count : Nat}

/-- A session begins with nothing delivered. -/
theorem Session.at_ofSource (source : List UInt8) : (ofSource source).At source 0 :=
  .running rfl rfl rfl

/-! ## The sequence -/

/-- The next token to deliver is the first one not delivered yet. -/
theorem delivery_of_drop {t : Token} {more : List Token}
    (h : (tokenize source).drop count = t :: more) : delivery source count = some t := by
  have hlength := congrArg List.length h
  rw [List.length_drop, List.length_cons] at hlength
  have hmin : min count ((tokenize source).length - 1) = count := by omega
  rw [delivery, hmin, ← List.head?_drop, h]
  rfl

/-- Once all tokens are delivered, the last one is delivered again. -/
theorem delivery_of_length_le (h : (tokenize source).length ≤ count + 1) :
    delivery source count = (tokenize source).getLast? := by
  have hmin : min count ((tokenize source).length - 1) = (tokenize source).length - 1 := by omega
  rw [delivery, hmin, List.getLast?_eq_getElem?]

/-! ## Scans -/

namespace Session.At

variable {s : Session}

/-- A scan delivers the next token. -/
theorem scan (h : s.At source count) :
    ∃ t, s.scan.1 = .ok t ∧ delivery source count = some t ∧ s.scan.2.At source (count + 1) := by
  cases h with
  | @ended last hopen hended hlast hcount =>
    rw [scan_of_ended hopen hended]
    refine ⟨last, rfl, ?_, .ended hopen hended hlast (by omega)⟩
    rw [delivery_of_length_le (by omega), hlast]
  | running hopen hended hdrain =>
    rw [scan_of_running hopen hended]
    rw [Scanner.drain_eq] at hdrain
    refine ⟨s.scanner.pull.1, rfl, ?_⟩
    by_cases hkind : s.scanner.pull.1.kind = .endOfFile
    · rw [if_pos hkind] at hdrain
      have hlength := congrArg List.length hdrain
      rw [List.length_drop, List.length_singleton] at hlength
      have hdelivery := delivery_of_drop hdrain.symm
      have hlast : (tokenize source).getLast? = some s.scanner.pull.1 := by
        have hcount : (tokenize source).length ≤ count + 1 := by omega
        rw [← delivery_of_length_le hcount, hdelivery]
      exact ⟨hdelivery, .ended hopen (if_pos hkind) hlast (by omega)⟩
    · rw [if_neg hkind] at hdrain
      refine ⟨delivery_of_drop hdrain.symm, .running hopen (if_neg hkind) ?_⟩
      rw [← List.tail_drop, ← hdrain]
      rfl

end Session.At

/-! ## Open sessions -/

/-- What a request hands out while the session is open: one token, the next one, or none. -/
theorem serve_at {d : Desk} (h : d.session.At source count) {request : Request}
    (hrequest : request ≠ .close ∧ request ≠ .read ∧ request ≠ .unread) :
    (∃ t, (d.serve request).1.token? = some t ∧ delivery source count = some t ∧
      (d.serve request).2.session.At source (count + 1)) ∨
    (d.serve request).1.token? = none ∧ (d.serve request).2.session.At source count := by
  by_cases hasks : d.Asks request
  · left
    obtain ⟨hsession, htoken⟩ := Desk.serve_of_asks hasks
    obtain ⟨t, hscan, hdelivery, hnext⟩ := h.scan
    refine ⟨t, ?_, hdelivery, ?_⟩
    · rw [htoken, hscan]
      rfl
    · rw [hsession]
      exact hnext
  · right
    obtain ⟨htoken, hsession⟩ := Desk.serve_of_not_asks hasks
    refine ⟨htoken, ?_⟩
    rw [hsession]
    cases request with
    | close => exact absurd rfl hrequest.1
    | read => exact absurd rfl hrequest.2.1
    | unread => exact absurd rfl hrequest.2.2
    | scan => exact h
    | item index => exact h
    | iterate => exact h

/-- While a session is open its tokens are handed out in order. -/
theorem serveAll_at {d : Desk} (h : d.session.At source count) {requests : List Request}
    (hrequests : ∀ request ∈ requests,
      request ≠ .close ∧ request ≠ .read ∧ request ≠ .unread) :
    (d.serveAll requests).2.session.At source
        (count + (handedOut (d.serveAll requests).1).length) ∧
      ∀ k < (handedOut (d.serveAll requests).1).length,
        (handedOut (d.serveAll requests).1)[k]? = delivery source (count + k) := by
  induction requests generalizing d count with
  | nil =>
    refine ⟨h, ?_⟩
    intro k hk
    cases hk
  | cons request more ih =>
    obtain ⟨hrequest, hmore⟩ := List.forall_mem_cons.mp hrequests
    rw [Desk.serveAll_cons]
    rcases serve_at h hrequest with ⟨t, htoken, hdelivery, hnext⟩ | ⟨htoken, hnext⟩
    · obtain ⟨hlast, horder⟩ := ih hnext hmore
      rw [handedOut, List.filterMap_cons_some htoken]
      refine ⟨?_, ?_⟩
      · rw [List.length_cons, Nat.add_comm _ 1, ← Nat.add_assoc]
        exact hlast
      · intro k hk
        cases k with
        | zero => exact hdelivery.symm
        | succ k =>
          rw [List.length_cons] at hk
          rw [List.getElem?_cons_succ, Nat.add_comm k 1, ← Nat.add_assoc]
          exact horder k (by exact Nat.lt_of_succ_lt_succ hk)
    · rw [handedOut, List.filterMap_cons_none htoken]
      exact ih hnext hmore

end

/-! ## Closed sessions -/

/-- A reply that delivers nothing: a scan has failed, and an iterator has failed or is finished. -/
def Reply.Refuses (reply : Reply) : Prop :=
  reply.token? = none ∧ (∀ result, reply = .token result → result = .error .closed) ∧
    ∀ result, reply = .item result → result = .error .closed ∨ result = .ok none

/-- A silent reply delivers nothing. -/
theorem refuses_silent : Reply.silent.Refuses :=
  ⟨rfl, by simp, by simp⟩

/-- A character is no token. -/
theorem refuses_char (result : Except SessionError (Option Char)) :
    (Reply.char result).Refuses :=
  ⟨rfl, by simp, by simp⟩

/-- An undoing is no token. -/
theorem refuses_undone (result : Except SessionError Unit) : (Reply.undone result).Refuses :=
  ⟨rfl, by simp, by simp⟩

/-- A scan of a closed session fails. -/
theorem refuses_token : (Reply.token (.error .closed)).Refuses :=
  ⟨rfl, fun _ h => (Reply.token.inj h).symm, by simp⟩

/-- An iterator that has failed or is finished gives no token. -/
theorem refuses_item {result : Except SessionError (Option Token)}
    (h : result = .error .closed ∨ result = .ok none) : (Reply.item result).Refuses := by
  refine ⟨?_, by simp, ?_⟩
  · rcases h with rfl | rfl <;> rfl
  · intro other hother
    rwa [← Reply.item.inj hother]

/-- A closed session refuses every request for a token. -/
theorem refuses_serve {d : Desk} (h : d.session.closed = true) (request : Request) :
    (d.serve request).1.Refuses := by
  have hscan := Session.scan_of_closed h
  cases request with
  | scan =>
    rw [Desk.serve, hscan]
    exact refuses_token
  | item index =>
    cases hiterator : d.iterators[index]? with
    | none =>
      rw [Desk.serve_item_of_none hiterator]
      exact refuses_silent
    | some iterator =>
      rw [Desk.serve_item_of_some hiterator]
      cases iterator with
      | finished => exact refuses_item (.inr rfl)
      | live =>
        rw [Session.Iterator.next_live, hscan]
        exact refuses_item (.inl rfl)
  | iterate => exact refuses_silent
  | close => exact refuses_silent
  | read => exact refuses_char _
  | unread => exact refuses_undone _

/-- A closed session refuses all requests for tokens. -/
theorem refuses_serveAll {d : Desk} (h : d.session.closed = true) (requests : List Request) :
    ∀ reply ∈ (d.serveAll requests).1, reply.Refuses := by
  induction requests generalizing d with
  | nil => exact List.forall_mem_nil _
  | cons request more ih =>
    have hnext := (d.closed_serve request).mpr (.inl h)
    exact List.forall_mem_cons.mpr ⟨refuses_serve h request, ih hnext⟩

/-- A session that is closed already is not changed by closing it. -/
theorem serve_close_of_closed {d : Desk} (h : d.session.closed = true) :
    d.serve .close = (.silent, d) := by
  have hclose : d.session.close = d.session := by
    rw [Session.close, ← h]
  rw [Desk.serve, hclose]

/-! ## Histories -/

/-- A desk that has a token for whoever asks next. -/
structure Desk.Offers (d : Desk) (t : Token) : Prop where
  scan : (d.serve .scan).1 = .token (.ok t)
  /-- An iterator that is live gives the token and ends if that is the last one. -/
  live : ∀ index, d.iterators[index]? = some .live →
    (d.serve (.item index)).1 = .item (.ok (some t)) ∧
      (d.serve (.item index)).2.iterators =
        d.iterators.set index (if t.kind = .endOfFile then .finished else .live)
  /-- An iterator that has ended gives nothing and takes nothing. -/
  finished : ∀ index, d.iterators[index]? = some .finished →
    d.serve (.item index) = (.item (.ok none), d)

/-- What a scan would give is what a live iterator would give. -/
theorem offers_of_scan {d : Desk} {t : Token} (h : d.session.scan.1 = .ok t) : d.Offers t where
  scan := congrArg Reply.token h
  live := by
    intro index hiterator
    rw [Desk.serve_item_of_some hiterator, Session.Iterator.next_live, h]
    exact ⟨rfl, rfl⟩
  finished := by
    intro index hiterator
    obtain ⟨hindex, hsame⟩ := List.getElem?_eq_some_iff.mp hiterator
    rw [Desk.serve_item_of_some hiterator]
    simp only [Session.Iterator.next, ← hsame, List.set_getElem_self]

section

variable {source : List UInt8} {init : List Token} {stop : Token}

/-- The tokens come in order, and then the last one again and again. -/
theorem delivery_eq (h : tokenize source = init ++ [stop]) (count : Nat) :
    delivery source count = if count < init.length then init[count]? else some stop := by
  have hlength : (tokenize source).length - 1 = init.length := by
    rw [h, List.length_append, List.length_singleton, Nat.add_sub_cancel]
  rw [delivery, hlength, h]
  split
  · have hmin : min count init.length = count := by omega
    rw [hmin, List.getElem?_append_left ‹_›]
  · have hmin : min count init.length = init.length := by omega
    rw [hmin, List.getElem?_concat_length]

/-- The tokens delivered are the first ones of the source, and then the last one for each request
more. -/
theorem eq_of_delivery (h : tokenize source = init ++ [stop]) {tokens : List Token}
    (htokens : ∀ k < tokens.length, tokens[k]? = delivery source k) :
    tokens = init.take tokens.length ++ List.replicate (tokens.length - init.length) stop := by
  apply List.ext_getElem?
  intro k
  by_cases hk : k < tokens.length
  · rw [htokens k hk, delivery_eq h]
    split
    · rw [List.getElem?_append_left (by rw [List.length_take]; omega), List.getElem?_take_of_lt hk]
    · have htake : (init.take tokens.length).length = init.length := by
        rw [List.length_take]
        omega
      rw [List.getElem?_append_right (by omega), htake, List.getElem?_replicate, if_pos (by omega)]
  · have hlength : (init.take tokens.length ++
        List.replicate (tokens.length - init.length) stop).length ≤ k := by
      rw [List.length_append, List.length_take, List.length_replicate]
      omega
    rw [List.getElem?_eq_none (by omega), List.getElem?_eq_none hlength]

/-- Each token of the source that has bytes goes to one request, and none is left out. -/
theorem filter_of_delivery (h : tokenize source = init ++ [stop]) (hstop : stop.kind = .endOfFile)
    (hinit : ∀ t ∈ init, t.kind ≠ .endOfFile) {tokens : List Token}
    (htokens : ∀ k < tokens.length, tokens[k]? = delivery source k) :
    tokens.filter (fun t => t.kind ≠ .endOfFile) =
      (tokenize source).dropLast.take tokens.length := by
  have hkept : (init.take tokens.length).filter (fun t => t.kind ≠ .endOfFile) =
      init.take tokens.length := by
    rw [List.filter_eq_self]
    intro t ht
    exact decide_eq_true (hinit t (List.mem_of_mem_take ht))
  have hdropped : (List.replicate (tokens.length - init.length) stop).filter
      (fun t => t.kind ≠ .endOfFile) = [] := by
    rw [List.filter_eq_nil_iff]
    intro t ht
    rw [List.eq_of_mem_replicate ht, hstop]
    decide
  conv_lhs => rw [eq_of_delivery h htokens]
  rw [List.filter_append, hkept, hdropped, List.append_nil, h, List.dropLast_concat]

/-- The token that is delivered is the one that ends the source once the others were delivered. -/
theorem kind_of_delivery (h : tokenize source = init ++ [stop]) (hstop : stop.kind = .endOfFile)
    (hinit : ∀ t ∈ init, t.kind ≠ .endOfFile) {count : Nat} {t : Token}
    (ht : delivery source count = some t) :
    t.kind = .endOfFile ↔ (tokenize source).length ≤ count + 1 := by
  rw [delivery_eq h] at ht
  rw [h, List.length_append, List.length_singleton]
  split at ht
  · exact iff_of_false (hinit t (List.mem_of_getElem? ht)) (by omega)
  · cases ht
    exact iff_of_true hstop (by omega)

end

/-- However scans, iterators and closing are interleaved, up to the first closing the requests that
ask for a token are given the tokens of the source in order, and then the one that ends it; after it
they are given none. -/
theorem serveAll_delivers (source : List UInt8) {requests : List Request} (more : List Request)
    (hrequests : ∀ request ∈ requests,
      request ≠ .close ∧ request ≠ .read ∧ request ≠ .unread) :
    let early := (Desk.ofSource source).serveAll requests;
    let late := early.2.serveAll (.close :: more);
    let delivered := handedOut early.1;
    (Desk.ofSource source).serveAll (requests ++ .close :: more) = (early.1 ++ late.1, late.2) ∧
    (∀ k < delivered.length, delivered[k]? = delivery source k) ∧
    delivered.filter (fun t => t.kind ≠ .endOfFile) =
      (tokenize source).dropLast.take delivered.length ∧
    (∃ t, delivery source delivered.length = some t ∧ early.2.Offers t ∧
      (t.kind = .endOfFile ↔ (tokenize source).length ≤ delivered.length + 1)) ∧
    (∀ reply ∈ late.1, reply.Refuses) ∧ late.2.serve .close = (.silent, late.2) := by
  intro early late delivered
  obtain ⟨init, hinit, hkinds, -⟩ := exists_init_tokensAt .origin (Utf8.symbols source)
  have htokens := (tokenize_eq source).trans hinit
  have hbegin : (Desk.ofSource source).session.At source 0 := Session.at_ofSource source
  obtain ⟨hopen, horder⟩ := serveAll_at hbegin hrequests
  simp only [Nat.zero_add] at hopen horder
  obtain ⟨t, hscan, hdelivery, -⟩ := hopen.scan
  have hclosed : (early.2.serve .close).2.session.closed = true :=
    (early.2.closed_serve .close).mpr (.inr rfl)
  refine ⟨Desk.serveAll_append _ _ _, horder, filter_of_delivery htokens rfl hkinds horder,
    ⟨t, hdelivery, offers_of_scan hscan, kind_of_delivery htokens rfl hkinds hdelivery⟩, ?_, ?_⟩
  · exact List.forall_mem_cons.mpr ⟨refuses_silent, refuses_serveAll hclosed more⟩
  · have hlate : late.2.session.closed = true :=
      (early.2.closed_serveAll (.close :: more)).mpr (.inr List.mem_cons_self)
    exact serve_close_of_closed hlate

/-- A scan and two iterators, one of which is made later and ends first, share the tokens of a
parenthesis and a dollar sign. -/
theorem serveAll_delivers_dollar :
    let requests : List Request := [.iterate, .item 0, .scan, .iterate, .item 1, .item 1, .item 0,
      .scan];
    let early := (Desk.ofSource [0x28, 0x24]).serveAll requests;
    (∀ request ∈ requests, request ≠ .close ∧ request ≠ .read ∧ request ≠ .unread) ∧
    (∀ k < (handedOut early.1).length,
      (handedOut early.1)[k]? = delivery [0x28, 0x24] k) ∧
    ∀ reply ∈ (early.2.serveAll [.close, .scan, .item 0, .close]).1, reply.Refuses := by
  intro requests early
  have hrequests : ∀ request ∈ requests,
      request ≠ .close ∧ request ≠ .read ∧ request ≠ .unread := by decide
  obtain ⟨-, horder, -, -, hrefuses, -⟩ :=
    serveAll_delivers [0x28, 0x24] [.scan, .item 0, .close] hrequests
  exact ⟨hrequests, horder, hrefuses⟩

end AsmLexer

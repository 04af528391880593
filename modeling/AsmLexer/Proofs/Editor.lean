import AsmLexer.Proofs.Marks

/-!
# An editor is shown the errors of the latest text

Every notification is answered by one publication about its own document (`answer_eq`). Where the
texts that are handed back are those last sent, this one shows the text that came with the
notification, and nothing of the history behind it (`publicationsFrom_eq`). Its marks point into
that text (`publications_show_latest`).
-/

set_option autoImplicit false

namespace AsmLexer

/-- The text last sent for a URI, empty if none was. -/
def lastSent : Documents := fun history uri =>
  ((history.reverse.find? fun n => n.uri = uri).map Notification.text).getD ""

/-- Documents that are handed back as they were last sent. It is said of the document that each
notification of a history is about, and of the moment when the notification was taken in. -/
def Documents.KeepLatest (documents : Documents) (history : List Notification) : Prop :=
  ∀ earlier n later, history = earlier ++ n :: later →
    documents (earlier ++ [n]) n.uri = lastSent (earlier ++ [n]) n.uri

section

variable {documents : Documents} {earlier history : List Notification}

/-- A text that was just sent is the last one for its URI. -/
theorem lastSent_append_self (earlier : List Notification) (n : Notification) :
    lastSent (earlier ++ [n]) n.uri = n.text := by
  simp [lastSent]

/-- Whether a document was opened or has changed, one publication about it is the answer. -/
theorem answer_eq (document : String → String) (n : Notification) :
    n.answer document = [⟨n.uri, marksOf (document n.uri)⟩] := by
  cases n with
  | opened uri text => rfl
  | changed uri text => rfl

/-- Each notification is answered by its own text, whatever was sent before. -/
theorem publicationsFrom_eq (h : ∀ before n later, history = before ++ n :: later →
      documents (earlier ++ before ++ [n]) n.uri = lastSent (earlier ++ before ++ [n]) n.uri) :
    publicationsFrom documents earlier history =
      history.map fun n => [⟨n.uri, marksOf n.text⟩] := by
  induction history generalizing earlier with
  | nil => rfl
  | cons n later ih =>
    have hfirst := h [] n later rfl
    rw [List.append_nil, lastSent_append_self] at hfirst
    have hlater : ∀ before m more, later = before ++ m :: more →
        documents (earlier ++ [n] ++ before ++ [m]) m.uri =
          lastSent (earlier ++ [n] ++ before ++ [m]) m.uri := by
      rintro before m more rfl
      have hm := h (n :: before) m more rfl
      simpa only [List.append_assoc, List.singleton_append] using hm
    rw [publicationsFrom, answer_eq, hfirst, ih hlater, List.map_cons]

end

/-- Where the documents are handed back as they were last sent, every notification of a history is
answered by one publication about its own document, whose marks are those of its own text. They
point at the characters at fault, no two of them on one line. -/
theorem publications_show_latest {documents : Documents} {history : List Notification}
    (h : documents.KeepLatest history) :
    publications documents history = history.map (fun n => [⟨n.uri, marksOf n.text⟩]) ∧
      ∀ n ∈ history, PointInto (marksOf n.text) n.text.toList := by
  constructor
  · apply publicationsFrom_eq
    intro before n later hsplit
    rw [List.nil_append]
    exact h before n later hsplit
  · intro n _
    exact pointInto_marksOf n.text

/-- Two documents in turn, with an error behind a two-byte character and one on a second line. -/
theorem publications_show_latest_two :
    let history : List Notification := [.opened "file:///a.s" "é: $", .opened "file:///b.s" "nop",
      .changed "file:///a.s" "\n 09 $"];
    lastSent.KeepLatest history ∧ publications lastSent history =
      [[⟨"file:///a.s", [⟨0, 3, "illegal symbol '$'", .error, "asmscan"⟩]⟩],
        [⟨"file:///b.s", []⟩],
        [⟨"file:///a.s", [⟨1, 2, "illegal symbol '9' in base 8 immediate value", .error,
          "asmscan"⟩]⟩]] := by
  intro history
  have hkeep : lastSent.KeepLatest history := by
    intro earlier n later _
    rfl
  have hfirst : marksOf "é: $" = [⟨0, 3, "illegal symbol '$'", .error, "asmscan"⟩] := by
    decide +kernel
  have hsecond : marksOf "nop" = [] := by decide +kernel
  have hthird : marksOf "\n 09 $" =
      [⟨1, 2, "illegal symbol '9' in base 8 immediate value", .error, "asmscan"⟩] := by
    decide +kernel
  refine ⟨hkeep, ?_⟩
  rw [(publications_show_latest hkeep).1]
  simp only [history, List.map_cons, List.map_nil, Notification.text, Notification.uri, hfirst,
    hsecond, hthird]

end AsmLexer

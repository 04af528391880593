import AsmLexer.Scanner.Pull

/-!
# Diagnostics for an editor

An editor sends the whole text of a document when it is opened and whenever it changes, and gets
back the errors of that text. Places are counted from zero and in characters, and each mark covers
the one character at the error.

The texts are kept by the library that speaks with the editor. It takes in a notification before the
server is called, and the server asks it for the text of the document (`Documents`).
-/

set_option autoImplicit false

namespace AsmLexer

/-- What an editor sends: the whole text of a document that is opened or has changed. -/
inductive Notification where
  | opened (uri text : String)
  | changed (uri text : String)
deriving DecidableEq

namespace Notification

/-- The document that a notification is about. -/
def uri : Notification → String
  | opened uri _ | changed uri _ => uri

/-- The text that a notification brings. -/
def text : Notification → String
  | opened _ text | changed _ text => text

end Notification

/-- The texts of the documents, by URI, that are handed back once these notifications were taken in,
the latest of them at the end. -/
abbrev Documents := List Notification → String → String

/-- How grave a mark is. Only errors are marked. -/
inductive Severity where
  | error
deriving DecidableEq

/-- A stretch of a line that an editor marks: line and first character from zero, one character
wide. -/
structure Mark where
  line : Int
  character : Int
  message : String
  severity : Severity
  /-- The name of the program that the mark is from. -/
  source : String
deriving DecidableEq

/-- What is published about a document. -/
structure Publication where
  uri : String
  marks : List Mark
deriving DecidableEq

/-- Where a mark begins: line and character. -/
def Mark.start (m : Mark) : Int × Int :=
  (m.line, m.character)

/-- Where a mark ends: behind its character, on the same line. -/
def Mark.stop (m : Mark) : Int × Int :=
  (m.line, m.character + 1)

/-- The mark of an error token. -/
def Mark.ofToken (t : Token) : Mark :=
  ⟨t.pos.line - 1, t.pos.column - 1, t.message, .error, "asmscan"⟩

/-- The marks of a text, one for each error. -/
def marksOf (text : String) : List Mark :=
  ((tokenize (Utf8.encode text.toList)).filter fun t => t.kind = .error).map Mark.ofToken

/-- What is published about a document, whose text is asked for. -/
def publication (document : String → String) (uri : String) : Publication :=
  ⟨uri, marksOf (document uri)⟩

/-- All that is published upon a notification. -/
def Notification.answer (document : String → String) : Notification → List Publication
  | .opened uri _ | .changed uri _ => [publication document uri]

/-- All that is published upon each notification of a history, behind the earlier ones. -/
def publicationsFrom (documents : Documents) (earlier : List Notification) :
    List Notification → List (List Publication)
  | [] => []
  | n :: later =>
    n.answer (documents (earlier ++ [n])) :: publicationsFrom documents (earlier ++ [n]) later

/-- All that is published upon each notification of a history. -/
def publications (documents : Documents) (history : List Notification) :
    List (List Publication) :=
  publicationsFrom documents [] history

end AsmLexer

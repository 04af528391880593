import AsmLexer.Proofs.Grammar.Classes
import AsmLexer.Proofs.Utf8.Symbols
import AsmLexer.Token.Kind

/-!
# The lexical grammar

A lexeme is a piece of source text with the kind of token it makes. A cut of a source is any way to
write it as lexemes one after the other, each of which may stand before what follows it. A cut is
greedy if no white space and no name in it could have gone on.

A source may have many cuts, since white space and names can be cut anywhere. Whenever it has one,
it has a greedy one (`Cut.exists_greedy`): what follows a name and could belong to it is itself made
of names and numbers, which the name takes in whole.
-/

set_option autoImplicit false

namespace AsmLexer

/-! ## Definitions -/

/-- The characters that are a token by themselves. -/
inductive Punctuation : Kind → Char → Prop where
  | newline : Punctuation .endOfLine '\n'
  | leftParen : Punctuation .leftParen '('
  | rightParen : Punctuation .rightParen ')'
  | colon : Punctuation .colon ':'
  | comma : Punctuation .comma ','

/-- The characters with which the names of each kind begin. -/
inductive Initial : Kind → Char → Prop where
  | letter {c : Char} : isLetter c → Initial .identifier c
  | underscore : Initial .identifier '_'
  | dot : Initial .directive '.'
  | percent : Initial .builtin '%'

/-- The texts of immediate values. -/
inductive Numeral : List Char → Prop where
  | zero : Numeral ['0']
  | decimal {c : Char} {cs : List Char} : '1' ≤ c ∧ c ≤ '9' → (∀ d ∈ cs, '0' ≤ d ∧ d ≤ '9') →
      Numeral (c :: cs)
  | octal {cs : List Char} : cs ≠ [] → (∀ d ∈ cs, '0' ≤ d ∧ d ≤ '7') → Numeral ('0' :: cs)
  | binary {mark : Char} {cs : List Char} : mark = 'b' ∨ mark = 'B' → cs ≠ [] →
      (∀ d ∈ cs, d = '0' ∨ d = '1') → Numeral ('0' :: mark :: cs)
  | hexadecimal {mark : Char} {cs : List Char} : mark = 'x' ∨ mark = 'X' → cs ≠ [] →
      (∀ d ∈ cs, '0' ≤ d ∧ d ≤ '9' ∨ 'a' ≤ d ∧ d ≤ 'f' ∨ 'A' ≤ d ∧ d ≤ 'F') →
      Numeral ('0' :: mark :: cs)

/-- The pieces of source text that make a token of each kind. All but comments are well-formed. -/
inductive Lexeme : Kind → List UInt8 → Prop where
  | punctuation {kind : Kind} {c : Char} : Punctuation kind c → Lexeme kind (Utf8.encode [c])
  | space {cs : List Char} : cs ≠ [] → (∀ c ∈ cs, c ≠ '\n' ∧ isBlank c) →
      Lexeme .space (Utf8.encode cs)
  | comment {text : List UInt8} : 0x0A ∉ text → Lexeme .comment (0x3B :: text)
  | name {kind : Kind} {c : Char} {cs : List Char} : Initial kind c → (∀ d ∈ cs, isNameChar d) →
      Lexeme kind (Utf8.encode (c :: cs))
  | immediate {cs : List Char} : Numeral cs → Lexeme .immediate (Utf8.encode cs)

/-- A text that begins with a character of some class. -/
def BeginsWith (p : Char → Prop) (text : List UInt8) : Prop :=
  ∃ c rest, p c ∧ text = String.utf8EncodeChar c ++ rest

/-- What may follow a lexeme: a comment reaches to the end of its line, and a number ends before a
separator. -/
def Kind.Allows : Kind → List UInt8 → Prop
  | .comment, rest => rest = [] ∨ ∃ more, rest = 0x0A :: more
  | .immediate, rest => rest = [] ∨ BeginsWith (isSeparator ·) rest
  | _, _ => True

/-- What may follow a lexeme that took in all it could. -/
def Kind.Exhausts : Kind → List UInt8 → Prop
  | .space, rest => ¬ BeginsWith (fun c => c ≠ '\n' ∧ isBlank c) rest
  | .identifier, rest | .directive, rest | .builtin, rest => ¬ BeginsWith (isNameChar ·) rest
  | _, _ => True

/-- What may follow a lexeme of a greedy cut. -/
def Kind.Ends (kind : Kind) (rest : List UInt8) : Prop :=
  kind.Allows rest ∧ kind.Exhausts rest

/-- A way to write a source as lexemes, each of which can be followed by the rest of it. -/
inductive Cut (follows : Kind → List UInt8 → Prop) :
    List UInt8 → List (Kind × List UInt8) → Prop where
  | done : Cut follows [] []
  | lexeme {kind : Kind} {raw rest : List UInt8} {more : List (Kind × List UInt8)} :
      Lexeme kind raw → follows kind rest → Cut follows rest more →
      Cut follows (raw ++ rest) ((kind, raw) :: more)

/-- A cut is one under any weaker condition on what follows a lexeme. -/
theorem Cut.mono {follows follows' : Kind → List UInt8 → Prop}
    (hfollows : ∀ kind rest, follows kind rest → follows' kind rest) {source : List UInt8}
    {lexemes : List (Kind × List UInt8)} (h : Cut follows source lexemes) :
    Cut follows' source lexemes := by
  induction h with
  | done => exact .done
  | lexeme hlexeme hfollow _ ih => exact .lexeme hlexeme (hfollows _ _ hfollow) ih

/-! ## What a text begins with -/

/-- Bytes begin with a character exactly if it is the first of their symbols. -/
theorem beginsWith_iff {p : Char → Prop} {text : List UInt8} :
    BeginsWith p text ↔ ∃ c, p c ∧ (Utf8.symbols text).head? = some (.char c) := by
  constructor
  · rintro ⟨c, rest, hc, rfl⟩
    exact ⟨c, hc, by rw [Utf8.symbols_encodeChar_append]; rfl⟩
  · rintro ⟨c, hc, hhead⟩
    obtain ⟨more, hmore⟩ := List.head?_eq_some_iff.mp hhead
    refine ⟨c, more.flatMap Symbol.bytes, hc, ?_⟩
    rw [← Utf8.bytes_symbols text, hmore]
    rfl

/-- No character is at the beginning of nothing. -/
theorem not_beginsWith_nil (p : Char → Prop) : ¬ BeginsWith p [] := by
  rw [beginsWith_iff, Utf8.symbols_nil]
  rintro ⟨c, -, hhead⟩
  cases hhead

/-- The encoding of a character begins with that character. -/
theorem beginsWith_encodeChar {p : Char → Prop} {c : Char} {rest : List UInt8} :
    BeginsWith p (String.utf8EncodeChar c ++ rest) ↔ p c := by
  rw [beginsWith_iff, Utf8.symbols_encodeChar_append]
  simp

/-- Encoded text begins with its first character. -/
theorem beginsWith_encode_cons {p : Char → Prop} {c : Char} {cs : List Char} {rest : List UInt8} :
    BeginsWith p (Utf8.encode (c :: cs) ++ rest) ↔ p c := by
  rw [Utf8.encode, List.flatMap_cons, List.append_assoc, beginsWith_encodeChar]

/-- A semicolon is its own byte. -/
theorem beginsWith_semicolon {p : Char → Prop} {rest : List UInt8} :
    BeginsWith p (0x3B :: rest) ↔ p ';' := by
  rw [show 0x3B :: rest = String.utf8EncodeChar ';' ++ rest from rfl, beginsWith_encodeChar]

/-! ## Lexemes that go on -/

/-- A punctuation mark does not continue a name. -/
theorem Punctuation.not_isNameChar {kind : Kind} {c : Char} (h : Punctuation kind c) :
    ¬ isNameChar c := by
  cases h <;> decide

/-- A punctuation mark is no space. -/
theorem Punctuation.not_isSpace {kind : Kind} {c : Char} (h : Punctuation kind c) :
    ¬ (c ≠ '\n' ∧ isBlank c) := by
  cases h <;> decide

/-- What begins a name is no blank. -/
theorem Initial.not_isBlank {kind : Kind} {c : Char} (h : Initial kind c) : ¬ isBlank c := by
  cases h with
  | letter hletter => exact fun hblank => not_isLetter_of_isBlank hblank hletter
  | underscore => decide
  | dot => decide
  | percent => decide

/-- A number holds digits and letters only. -/
theorem Numeral.isNameChar {cs : List Char} (h : Numeral cs) : ∀ c ∈ cs, isNameChar c := by
  have hzero : AsmLexer.isNameChar '0' := by decide
  cases h with
  | zero => simpa using hzero
  | decimal hfirst hmore =>
    rw [List.forall_mem_cons]
    exact ⟨isNameChar_of_digit (Char.le_trans (by decide) hfirst.1) hfirst.2,
      fun d hd => isNameChar_of_digit (hmore d hd).1 (hmore d hd).2⟩
  | octal _ hmore =>
    rw [List.forall_mem_cons]
    exact ⟨hzero, fun d hd => isNameChar_of_digit (hmore d hd).1
      (Char.le_trans (hmore d hd).2 (by decide))⟩
  | binary hmark _ hmore =>
    rw [List.forall_mem_cons, List.forall_mem_cons]
    refine ⟨hzero, ?_, fun d hd => ?_⟩
    · rcases hmark with rfl | rfl <;> decide
    · rcases hmore d hd with rfl | rfl <;> decide
  | hexadecimal hmark _ hmore =>
    rw [List.forall_mem_cons, List.forall_mem_cons]
    refine ⟨hzero, ?_, fun d hd => ?_⟩
    · rcases hmark with rfl | rfl <;> decide
    · rcases hmore d hd with hd | hd | hd
      · exact isNameChar_of_digit hd.1 hd.2
      · exact isNameChar_of_isLetter (isLetter_of_lower hd.1 (Char.le_trans hd.2 (by decide)))
      · exact isNameChar_of_isLetter (isLetter_of_upper hd.1 (Char.le_trans hd.2 (by decide)))

/-- A number is not empty. -/
theorem Numeral.ne_nil {cs : List Char} (h : Numeral cs) : cs ≠ [] := by
  cases h <;> exact List.cons_ne_nil _ _

/-- Where white space could go on, the next lexeme is white space. -/
theorem Lexeme.kind_eq_space {kind : Kind} {raw rest : List UInt8} (h : Lexeme kind raw)
    (hbegins : BeginsWith (fun c => c ≠ '\n' ∧ isBlank c) (raw ++ rest)) : kind = .space := by
  cases h with
  | punctuation hmark => exact absurd (beginsWith_encode_cons.mp hbegins) hmark.not_isSpace
  | space hne hall => rfl
  | comment htext => exact absurd (beginsWith_semicolon.mp hbegins) (by decide)
  | name hinitial hall => exact absurd (beginsWith_encode_cons.mp hbegins).2 hinitial.not_isBlank
  | @immediate cs hnumeral =>
    obtain ⟨c, cs, rfl⟩ := List.exists_cons_of_ne_nil hnumeral.ne_nil
    exact absurd (hnumeral.isNameChar c List.mem_cons_self)
      (not_isNameChar_of_isBlank (beginsWith_encode_cons.mp hbegins).2)

/-- Where a name could go on, the next lexeme can be taken into it as a whole. -/
theorem Lexeme.exists_name {kind : Kind} {raw rest : List UInt8} (h : Lexeme kind raw)
    (hends : kind.Ends rest) (hbegins : BeginsWith (isNameChar ·) (raw ++ rest)) :
    ∃ cs, raw = Utf8.encode cs ∧ (∀ c ∈ cs, isNameChar c) ∧ ¬ BeginsWith (isNameChar ·) rest := by
  cases h with
  | punctuation hmark => exact absurd (beginsWith_encode_cons.mp hbegins) hmark.not_isNameChar
  | @space cs hne hall =>
    obtain ⟨c, cs, rfl⟩ := List.exists_cons_of_ne_nil hne
    exact absurd (beginsWith_encode_cons.mp hbegins)
      (not_isNameChar_of_isBlank (hall c List.mem_cons_self).2)
  | comment htext => exact absurd (beginsWith_semicolon.mp hbegins) (by decide)
  | name hinitial hall =>
    have hc := beginsWith_encode_cons.mp hbegins
    refine ⟨_, rfl, List.forall_mem_cons.mpr ⟨hc, hall⟩, ?_⟩
    cases hinitial <;> exact hends.2
  | immediate hnumeral =>
    refine ⟨_, rfl, hnumeral.isNameChar, ?_⟩
    rcases hends.1 with rfl | hseparator
    · exact not_beginsWith_nil _
    · obtain ⟨c, more, hc, rfl⟩ := hseparator
      rw [beginsWith_encodeChar]
      exact not_isNameChar_of_isSeparator hc

/-- A lexeme that could go on is the beginning of a longer one. -/
theorem Lexeme.exists_longer {kind kind' : Kind} {raw raw' rest : List UInt8}
    (h : Lexeme kind raw) (hgoes : ¬ kind.Exhausts (raw' ++ rest)) (h' : Lexeme kind' raw')
    (hends : kind'.Ends rest) : Lexeme kind (raw ++ raw') ∧ kind.Ends rest := by
  cases h with
  | punctuation hmark => exact absurd (by cases hmark <;> exact trivial) hgoes
  | comment htext => exact absurd trivial hgoes
  | immediate hnumeral => exact absurd trivial hgoes
  | @space cs hne hall =>
    obtain rfl := h'.kind_eq_space (Classical.not_not.mp hgoes)
    -- no other lexeme is of the kind `space`
    cases h' with
    | punctuation hmark => cases hmark
    | name hinitial => cases hinitial
    | @space cs' hne' hall' =>
      rw [← Utf8.encode_append]
      refine ⟨.space (List.append_ne_nil_of_left_ne_nil hne cs') fun c hc => ?_, hends⟩
      rcases List.mem_append.mp hc with hc | hc
      · exact hall c hc
      · exact hall' c hc
  | @name _ c cs hinitial hall =>
    have hbegins : BeginsWith (isNameChar ·) (raw' ++ rest) := by
      cases hinitial <;> exact Classical.not_not.mp hgoes
    obtain ⟨cs', rfl, hall', hstops⟩ := h'.exists_name hends hbegins
    rw [← Utf8.encode_append, List.cons_append]
    refine ⟨.name hinitial fun d hd => ?_, ?_⟩
    · rcases List.mem_append.mp hd with hd | hd
      · exact hall d hd
      · exact hall' d hd
    · cases hinitial <;> exact ⟨trivial, hstops⟩

/-- Whatever can be cut can be cut greedily. -/
theorem Cut.exists_greedy {source : List UInt8} {lexemes : List (Kind × List UInt8)}
    (h : Cut Kind.Allows source lexemes) : ∃ greedy, Cut Kind.Ends source greedy := by
  induction h with
  | done => exact ⟨[], .done⟩
  | @lexeme kind raw rest more hlexeme hallows _ ih =>
    obtain ⟨greedy, hgreedy⟩ := ih
    by_cases hexhausts : kind.Exhausts rest
    · exact ⟨_, .lexeme hlexeme ⟨hallows, hexhausts⟩ hgreedy⟩
    -- this lexeme could go on, so it takes in the first one of the rest, and ends where that ends
    cases hgreedy with
    | done =>
      exfalso
      apply hexhausts
      cases kind <;> first | exact trivial | exact not_beginsWith_nil _
    | @lexeme _ raw' rest' _ hnext hends hgreedy =>
      obtain ⟨hlonger, hends'⟩ := hlexeme.exists_longer hexhausts hnext hends
      rw [← List.append_assoc]
      exact ⟨_, .lexeme hlonger hends' hgreedy⟩

end AsmLexer

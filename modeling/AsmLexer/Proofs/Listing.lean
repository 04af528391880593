import AsmLexer.Proofs.Grammar.Acceptance
import AsmLexer.Proofs.Listing.Lines
import AsmLexer.Proofs.Text.Quoted
import AsmLexer.Proofs.Utf8.Lossy

/-!
# Listings are lossless

The lines of a listing are those of its tokens (`splitOn_dump`). The line of a token without an
error has its position in front of two colons, and its kind in front of a blank, and the rest of it
is the quoted text, so it says all that is shown of the token (`entry_of_line`). The texts of the
tokens of a text without errors are that text (`flatMap_text_tokensAt`), which is therefore
determined by its listing (`listing_lossless`).
-/

set_option autoImplicit false

namespace AsmLexer

/-- What a listing shows of a token. -/
structure Entry where
  line : Int
  column : Int
  kind : Kind
  text : String
deriving DecidableEq

/-- The entry of a token. -/
def Token.entry (t : Token) : Entry :=
  ⟨t.pos.line, t.pos.column, t.kind, t.text⟩

/-! ## Kinds -/

/-- A kind is found by what is shown of it. -/
theorem Kind.find?_display (kind : Kind) :
    Kind.all.find? (fun k => k.display = kind.display) = some kind := by
  cases kind <;> decide

/-- Two kinds that are shown alike are the same. -/
theorem Kind.display_injective : Function.Injective Kind.display := by
  intro kind other h
  have hkind := kind.find?_display
  rw [h, other.find?_display] at hkind
  exact (Option.some.inj hkind).symm

/-- What is shown of a kind has no blank. -/
theorem Kind.blank_notMem_display (kind : Kind) : ' ' ∉ kind.display.toList := by
  cases kind <;> decide

/-! ## Lines -/

/-- Two texts with the same separator are the same in front of the first one and behind it. -/
theorem eq_of_append_separator {separator : Char} {front before rest after : List Char}
    (hfront : separator ∉ front) (hbefore : separator ∉ before)
    (h : front ++ separator :: rest = before ++ separator :: after) :
    front = before ∧ rest = after := by
  have hsplit := congrArg (List.splitOn separator) h
  rw [List.splitOn_append_cons_self_of_not_mem hfront,
    List.splitOn_append_cons_self_of_not_mem hbefore] at hsplit
  obtain rfl := (List.cons.inj hsplit).1
  exact ⟨rfl, (List.cons.inj (List.append_cancel_left h)).2⟩

section

variable {t u : Token}

/-- The line of a token without an error, with what separates its parts. -/
theorem toList_line (h : t.kind ≠ .error) :
    t.line.toList = (toString t.pos.line).toList ++ ':' ::
      ((toString t.pos.column).toList ++ ':' ::
        (' ' :: t.kind.display.toList ++ ' ' :: (quoted t.text).toList)) := by
  have hcolon : ":".toList = [':'] := by simp
  have hgap : ": ".toList = [':', ' '] := by simp
  have hblank : " ".toList = [' '] := by simp
  rw [Token.line, Position.text, if_neg h]
  simp only [String.toList_append, hcolon, hgap, hblank, List.append_assoc,
    List.cons_append, List.nil_append]

/-- A natural number is read back from its digits. -/
theorem toString_nat_injective : Function.Injective (toString : Nat → String) := by
  intro m n h
  have hdigits : Nat.toDigits 10 m = Nat.toDigits 10 n := by
    rw [Nat.toString_eq_ofList_toDigits, Nat.toString_eq_ofList_toDigits] at h
    exact String.ofList_injective h
  have hread := congrArg (fun digits => Nat.ofDigitChars 10 digits 0) hdigits
  simpa only [Nat.ofDigitChars_ten_toDigits] using hread

/-- A number is read back from its sign and its digits. -/
theorem toString_int_injective : Function.Injective (toString : Int → String) := by
  have hsign (n : Nat) : (toString (Int.negSucc n)).toList = '-' :: (toString (n + 1)).toList := by
    rw [show toString (Int.negSucc n) = "-" ++ toString (n + 1) from rfl, String.toList_append]
    rfl
  -- no digit is a sign, so a number is not written like one below zero
  have hdiffer (m n : Nat) : toString (Int.ofNat m) ≠ toString (Int.negSucc n) := by
    intro h
    have hmem : '-' ∈ (toString m).toList := by
      rw [show toString m = toString (Int.ofNat m) from rfl, h, hsign]
      exact List.mem_cons_self
    cases mem_toString_nat hmem
  intro i j h
  cases i with
  | ofNat m =>
    cases j with
    | ofNat n => exact congrArg Int.ofNat (toString_nat_injective h)
    | negSucc n => exact absurd h (hdiffer m n)
  | negSucc m =>
    cases j with
    | ofNat n => exact absurd h.symm (hdiffer n m)
    | negSucc n =>
      have hlists := congrArg String.toList h
      rw [hsign, hsign] at hlists
      have hdigits := String.toList_injective (List.cons.inj hlists).2
      rw [Nat.succ.inj (toString_nat_injective hdigits)]

/-- The line of a token says all that is shown of it. -/
theorem entry_of_line (ht : t.kind ≠ .error) (hu : u.kind ≠ .error) (h : t.line = u.line) :
    t.entry = u.entry := by
  have hcolon (i : Int) : ':' ∉ (toString i).toList := notMem_toString (by decide) (by decide)
  have hblank (kind : Kind) : ' ' ∉ kind.display.toList := kind.blank_notMem_display
  have hlists : t.line.toList = u.line.toList := congrArg String.toList h
  rw [toList_line ht, toList_line hu] at hlists
  obtain ⟨hline, hbehind⟩ := eq_of_append_separator (hcolon _) (hcolon _) hlists
  obtain ⟨hcolumn, hshown⟩ := eq_of_append_separator (hcolon _) (hcolon _) hbehind
  obtain ⟨hkind, hquoted⟩ := eq_of_append_separator (hblank _) (hblank _) (List.cons.inj hshown).2
  have hline := toString_int_injective (String.toList_injective hline)
  have hcolumn := toString_int_injective (String.toList_injective hcolumn)
  have hkind := Kind.display_injective (String.toList_injective hkind)
  have htext := quoted_injective (String.toList_injective hquoted)
  rw [Token.entry, Token.entry, hline, hcolumn, hkind, htext]

end

/-! ## Listings -/

/-- Tokens without errors that have the same lines show the same. -/
theorem map_entry_of_lines {tokens others : List Token} (htokens : ErrorFree tokens)
    (hothers : ErrorFree others) (h : tokens.map Token.line = others.map Token.line) :
    tokens.map Token.entry = others.map Token.entry := by
  induction tokens generalizing others with
  | nil =>
    have hnil : others = [] := by simpa using h.symm
    rw [hnil]
  | cons t tokens ih =>
    obtain ⟨u, others, rfl⟩ := List.exists_cons_of_ne_nil (l := others) (by rintro rfl; simp at h)
    rw [List.map_cons, List.map_cons, List.cons.injEq] at h
    rw [ErrorFree, List.forall_mem_cons] at htokens hothers
    rw [List.map_cons, List.map_cons, entry_of_line htokens.1 hothers.1 h.1,
      ih htokens.2 hothers.2 h.2]

/-- Tokens without errors that have the same listing show the same. -/
theorem map_entry_of_listing {tokens others : List Token} (htokens : ErrorFree tokens)
    (hothers : ErrorFree others) (h : listing [] tokens = listing [] others) :
    tokens.map Token.entry = others.map Token.entry := by
  have hsplit := splitOn_dump fun t ht => newline_notMem_line (htokens t ht)
  have hsplit' := splitOn_dump fun t ht => newline_notMem_line (hothers t ht)
  rw [dump_eq_listing, h, ← dump_eq_listing, hsplit'] at hsplit
  have hlines := List.append_cancel_right hsplit
  apply map_entry_of_lines htokens hothers
  have hmap := congrArg (List.map String.ofList) hlines
  simpa [Function.comp_def] using hmap.symm

/-! ## Texts -/

/-- The text of a token whose bytes are an encoded text is that text. -/
theorem text_of_encode {t : Token} {cs : List Char} (h : t.raw = Utf8.encode cs) :
    t.text.toList = cs := by
  have hdecoded := Utf8.decodeLossy_encode_append cs []
  rw [List.append_nil, Utf8.decodeLossy_nil, List.append_nil] at hdecoded
  rw [Token.text, h, hdecoded, String.toList_ofList]

/-- The texts of the tokens of a text without errors, one after the other, are the text. -/
theorem flatMap_text_tokensAt {pos : Position} {symbols : List Symbol} {cs : List Char}
    (hsymbols : symbols = cs.map .char) (h : ErrorFree (tokensAt pos symbols)) :
    (tokensAt pos symbols).flatMap (fun t => t.text.toList) = cs := by
  induction symbols using pieces_induction generalizing pos cs with
  | nil =>
    obtain rfl : cs = [] := by simpa using hsymbols.symm
    rw [tokensAt_nil, List.flatMap_singleton]
    exact text_of_encode rfl
  | piece symbols hne ih =>
    rw [tokensAt_of_ne_nil pos hne, ErrorFree, List.forall_mem_cons] at h
    obtain ⟨hkind, hmore⟩ := h
    have hfault : ¬ (nextPiece symbols).fault.isSome := by
      rw [← (nextPiece_fits hne).1.kind_eq_error_iff]
      exact hkind
    have hgap : (nextPiece symbols).gap = [] := if_neg hfault
    have hsplit := nextPiece_split symbols
    rw [hgap, List.nil_append] at hsplit
    obtain ⟨ds, rest, rfl, htaken, hrest⟩ :=
      List.map_eq_append_iff.mp (hsymbols.symm.trans hsplit.symm)
    have hraw : ((nextPiece symbols).token pos).raw = Utf8.encode ds := by
      show (nextPiece symbols).taken.flatMap Symbol.bytes = _
      rw [← htaken, Utf8.bytes_map_char]
    rw [tokensAt_of_ne_nil pos hne, List.flatMap_cons, text_of_encode hraw, ih hrest.symm hmore]

/-- The texts of the tokens of a text without errors are that text. -/
theorem join_text_tokenize {text : String} (h : ErrorFree (tokenize (Utf8.encode text.toList))) :
    String.join ((tokenize (Utf8.encode text.toList)).map Token.text) = text := by
  rw [tokenize_eq] at h ⊢
  have hsymbols := Utf8.symbols_encode text.toList
  apply String.toList_injective
  rw [String.toList_join, List.flatMap_map]
  exact flatMap_text_tokensAt hsymbols h

/-- The listing of a text without errors shows where each token is, its kind and its text, and so
the text itself. -/
theorem listing_lossless :
    (∀ tokens others, ErrorFree tokens → ErrorFree others →
      listing [] tokens = listing [] others → tokens.map Token.entry = others.map Token.entry) ∧
    (∀ text : String, ErrorFree (tokenize (Utf8.encode text.toList)) →
      String.join ((tokenize (Utf8.encode text.toList)).map Token.text) = text) ∧
    ∀ s t : String, ErrorFree (tokenize (Utf8.encode s.toList)) →
      ErrorFree (tokenize (Utf8.encode t.toList)) →
      listing [] (tokenize (Utf8.encode s.toList)) = listing [] (tokenize (Utf8.encode t.toList)) →
      s = t := by
  refine ⟨fun _ _ => map_entry_of_listing, fun _ => join_text_tokenize, ?_⟩
  intro s t hs ht h
  have hentries := map_entry_of_listing hs ht h
  have htexts := congrArg (List.map Entry.text) hentries
  rw [List.map_map, List.map_map] at htexts
  rw [← join_text_tokenize hs, ← join_text_tokenize ht]
  exact congrArg String.join htexts

end AsmLexer

import AsmLexer.Proofs.Extent
import AsmLexer.Proofs.Scanner.Lookahead
import AsmLexer.Proofs.Session.Backpressure
import AsmLexer.Proofs.Utf8.Decoding

/-!
# Four bytes of lookahead

A token is read off its symbols and the one behind them, and a symbol off four bytes at most
(`Utf8.first?_take`). So if two sources agree up to some offset, then the tokens that end four bytes
in front of it are the same in both (`tokensEndingBy_congr`). One source is followed token by token,
and the other one is shown to go on in the same way: with the symbols of the piece, and behind an
error with those of the line that is dropped, as far as they matter.
-/

set_option autoImplicit false

namespace AsmLexer

/-- Of tokens the first of which begins at an offset, the ones at the front whose bytes end at or
before a limit. -/
def tokensWithin (source : List UInt8) (limit : Int) (start : Nat) : List Token → List Token
  | [] => []
  | t :: more =>
    if (start + t.raw.length : Nat) ≤ limit then
      t :: tokensWithin source limit (resumeOffset source start t) more
    else []

/-- The tokens at the front of a source whose bytes end at or before a limit. -/
def tokensEndingBy (source : List UInt8) (limit : Int) : List Token :=
  tokensWithin source limit 0 (tokenize source)

/-! ## Bytes -/

/-- The first symbol is read off four bytes at most. -/
theorem Utf8.first?_take (text : List UInt8) : first? (text.take 4) = first? text := by
  have hencoding (c : Char) :
      String.utf8EncodeChar c <+: text.take 4 ↔ String.utf8EncodeChar c <+: text := by
    rw [List.prefix_take_iff, String.length_utf8EncodeChar]
    exact and_iff_left c.utf8Size_le_four
  have hhead : (text.take 4).head? = text.head? := by cases text <;> rfl
  cases hfirst : first? text with
  | none =>
    rw [first?_eq_none_iff.mp hfirst]
    rfl
  | some s =>
    cases s with
    | char c => rwa [first?_eq_char_iff, hencoding, ← first?_eq_char_iff]
    | malformed byte =>
      rw [first?_eq_malformed_iff] at hfirst ⊢
      simp only [hencoding, hhead]
      exact hfirst

section

variable {source other : List UInt8} {n : Nat} {front xs ys : List Symbol}

/-- Two sources that agree up to an offset go on with the same symbol four bytes in front of it. -/
theorem head?_eq_of_take (hshared : source.take n = other.take n)
    (hsource : Utf8.symbols source = front ++ xs) (hother : Utf8.symbols other = front ++ ys)
    (hn : (front.flatMap Symbol.bytes).length + 4 ≤ n) : xs.head? = ys.head? := by
  have hfour (bytes : List UInt8) :
      (bytes.drop (front.flatMap Symbol.bytes).length).take 4 =
        ((bytes.take n).take ((front.flatMap Symbol.bytes).length + 4)).drop
          (front.flatMap Symbol.bytes).length := by
    rw [List.take_take, Nat.min_eq_left hn, List.drop_take]
    congr 1
    omega
  rw [← first?_drop_of_symbols hsource, ← first?_drop_of_symbols hother, ← Utf8.first?_take,
    hfour, hshared, ← hfour, Utf8.first?_take]

/-- Two sources that agree up to an offset go on with the same run of symbols that ends four bytes
in front of it, and with the same symbol behind that run. -/
theorem exists_run_of_take (hshared : source.take n = other.take n) {run rest : List Symbol}
    (hsource : Utf8.symbols source = front ++ (run ++ rest))
    (hother : Utf8.symbols other = front ++ ys)
    (hn : ((front ++ run).flatMap Symbol.bytes).length + 4 ≤ n) :
    ∃ more, ys = run ++ more ∧ more.head? = rest.head? := by
  induction run generalizing front ys with
  | nil =>
    rw [List.append_nil] at hn
    exact ⟨ys, rfl, (head?_eq_of_take hshared hsource hother hn).symm⟩
  | cons s run ih =>
    have hfront : (front.flatMap Symbol.bytes).length + 4 ≤ n := by
      rw [List.flatMap_append, List.length_append] at hn
      omega
    have hhead := head?_eq_of_take hshared hsource hother hfront
    obtain ⟨ys, rfl⟩ := List.head?_eq_some_iff.mp hhead.symm
    have hassoc (more : List Symbol) : front ++ s :: more = front ++ [s] ++ more := by
      rw [List.append_assoc]
      rfl
    rw [hassoc] at hn hother
    rw [List.cons_append, hassoc] at hsource
    obtain ⟨more, rfl, hmore⟩ := ih hsource hother hn
    exact ⟨more, rfl, hmore⟩

/-! ## Pieces -/

/-- What is dropped behind a piece is read off itself and the symbol behind it. -/
theorem Piece.gap_followedBy {p : Piece} {more : List Symbol} (h : more.head? = p.after.head?) :
    (p.followedBy (p.gap ++ more)).gap = p.gap := by
  by_cases hfault : p.fault.isSome
  · have hgap : p.gap = p.rest.takeWhile Symbol.staysOnLine := if_pos hfault
    have hstays : ∀ s ∈ p.gap, s.staysOnLine = true := by
      rw [hgap]
      exact fun s hs => List.mem_takeWhile_imp hs
    have hstop : more.takeWhile Symbol.staysOnLine = [] := by
      have hnot := List.head?_dropWhile_not Symbol.staysOnLine p.rest
      rw [Piece.after, if_pos hfault] at h
      rw [← h] at hnot
      cases more with
      | nil => rfl
      | cons s more => exact List.takeWhile_cons_of_neg (by simpa using hnot)
    show (if p.fault.isSome then (p.gap ++ more).takeWhile Symbol.staysOnLine else []) = _
    rw [if_pos hfault, List.takeWhile_append_of_pos hstays, hstop, List.append_nil]
  · have hgap : p.gap = [] := if_neg hfault
    rw [hgap]
    exact if_neg hfault

/-- Two sources that agree up to an offset go on with the same piece that ends four bytes in front
of it, and drop the same symbols behind it if these end there, too. -/
theorem nextPiece_of_take (hshared : source.take n = other.take n)
    (hsource : Utf8.symbols source = front ++ xs) (hother : Utf8.symbols other = front ++ ys)
    (hne : xs ≠ [])
    (hn : ((front ++ (nextPiece xs).taken).flatMap Symbol.bytes).length + 4 ≤ n) :
    ys ≠ [] ∧ (∀ pos, (nextPiece ys).token pos = (nextPiece xs).token pos) ∧
      (((front ++ ((nextPiece xs).taken ++ (nextPiece xs).gap)).flatMap Symbol.bytes).length + 4 ≤
        n → (nextPiece ys).taken = (nextPiece xs).taken ∧
          (nextPiece ys).gap = (nextPiece xs).gap) := by
  have htaken : Utf8.symbols source = front ++ ((nextPiece xs).taken ++ (nextPiece xs).rest) :=
    hsource.trans (congrArg _ (nextPiece_fits hne).1.covers.symm)
  obtain ⟨more, rfl, hmore⟩ := exists_run_of_take hshared htaken hother hn
  have hpiece := nextPiece_followedBy hne (.inr (.inr hmore))
  refine ⟨List.append_ne_nil_of_left_ne_nil (nextPiece_fits hne).2 more, ?_, ?_⟩
  · intro pos
    rw [hpiece]
    rfl
  · intro hline
    have hgap : Utf8.symbols source =
        front ++ (((nextPiece xs).taken ++ (nextPiece xs).gap) ++ (nextPiece xs).after) := by
      rw [List.append_assoc, nextPiece_split, hsource]
    obtain ⟨behind, hbehind, hhead⟩ := exists_run_of_take hshared hgap hother hline
    rw [List.append_assoc] at hbehind
    obtain rfl := List.append_cancel_left hbehind
    rw [hpiece]
    exact ⟨rfl, Piece.gap_followedBy hhead⟩

/-! ## Tokens -/

/-- Behind the limit no token is counted. -/
theorem tokensWithin_of_lt {limit : Int} {start : Nat} (h : limit < start) (tokens : List Token) :
    tokensWithin source limit start tokens = [] := by
  cases tokens with
  | nil => rfl
  | cons t tokens =>
    rw [tokensWithin, if_neg]
    omega

/-- The tokens of one source up to the limit are found in the other one. The other direction is the
same statement with the sources exchanged. -/
theorem tokensWithin_isPrefix (hshared : source.take n = other.take n)
    (hsource : Utf8.symbols source = front ++ xs) (hother : Utf8.symbols other = front ++ ys)
    (pos : Position) :
    tokensWithin source (n - 4) (front.flatMap Symbol.bytes).length (tokensAt pos xs) <+:
      tokensWithin other (n - 4) (front.flatMap Symbol.bytes).length (tokensAt pos ys) := by
  -- both sources have `front` behind them, and the induction follows the pieces of the first one
  induction xs using pieces_induction generalizing front ys pos with
  | nil =>
    by_cases hn : (front.flatMap Symbol.bytes).length + 4 ≤ n
    · have hhead := head?_eq_of_take hshared hsource hother hn
      rw [List.head?_eq_none_iff.mp hhead.symm, tokensAt_nil]
      exact List.prefix_refl _
    · rw [tokensWithin_of_lt (by omega)]
      exact List.nil_prefix
  | piece xs hne ih =>
    rw [tokensAt_of_ne_nil pos hne, tokensWithin]
    split
    · rename_i hend
      have hn : ((front ++ (nextPiece xs).taken).flatMap Symbol.bytes).length + 4 ≤ n := by
        have hraw : ((nextPiece xs).token pos).raw.length =
            ((nextPiece xs).taken.flatMap Symbol.bytes).length := rfl
        rw [List.flatMap_append, List.length_append]
        omega
      obtain ⟨hne', htoken, hsame⟩ := nextPiece_of_take hshared hsource hother hne hn
      have hresume := resumeOffset_token hother hne' pos
      rw [htoken] at hresume
      rw [tokensAt_of_ne_nil pos hne', htoken, tokensWithin, if_pos hend, List.cons_prefix_cons,
        resumeOffset_token hsource hne pos, hresume]
      refine ⟨rfl, ?_⟩
      -- a dropped line that goes on behind the limit leaves no token in front of it
      by_cases hline : ((front ++ ((nextPiece xs).taken ++ (nextPiece xs).gap)).flatMap
          Symbol.bytes).length + 4 ≤ n
      · obtain ⟨htaken, hgap⟩ := hsame hline
        have hsource' : Utf8.symbols source =
            front ++ ((nextPiece xs).taken ++ (nextPiece xs).gap) ++ (nextPiece xs).after := by
          rw [List.append_assoc, List.append_assoc, nextPiece_split, hsource]
        have hother' : Utf8.symbols other =
            front ++ ((nextPiece xs).taken ++ (nextPiece xs).gap) ++ (nextPiece ys).after := by
          rw [← htaken, ← hgap, List.append_assoc, List.append_assoc, nextPiece_split, hother]
        rw [htaken, hgap]
        exact ih hsource' hother' _
      · rw [tokensWithin_of_lt (by omega)]
        exact List.nil_prefix
    · exact List.nil_prefix

/-- Of two sources that agree up to an offset, the tokens of the one that end four bytes in front of
it begin those of the other. -/
theorem tokensEndingBy_isPrefix (hshared : source.take n = other.take n) :
    tokensEndingBy source (n - 4) <+: tokensEndingBy other (n - 4) := by
  rw [tokensEndingBy, tokensEndingBy, tokenize_eq, tokenize_eq]
  exact @tokensWithin_isPrefix source other n [] _ _ hshared rfl rfl .origin

/-- Two sources with the same beginning have the same tokens up to four bytes before its end. -/
theorem tokensEndingBy_congr (hshared : source.take n = other.take n) :
    tokensEndingBy source (n - 4) = tokensEndingBy other (n - 4) :=
  (tokensEndingBy_isPrefix hshared).eq_of_length_le
    (tokensEndingBy_isPrefix hshared.symm).length_le

end

/-- Three bytes are too few: whether the second byte begins a character is seen at the fifth one. -/
example : tokensEndingBy [0x61, 0xF0, 0x9F, 0x98, 0x80] (4 - 3) ≠
    tokensEndingBy [0x61, 0xF0, 0x9F, 0x98, 0x58] (4 - 3) := by decide +kernel

/-- Each request that has a token built leaves the scanner of any source right behind the bytes of
that token, and two sources that agree up to an offset have the same tokens up to four bytes in
front of it. -/
theorem lookahead_bounded (source : List UInt8) :
    (∀ requests request t,
      let d := ((Desk.ofSource source).serveAll requests).2;
      d.session.ended = none → (d.serve request).1.token? = some t →
      (d.serve request).2.session.scanner.StopsBehind source
        (if t.kind = .error then d.session.scanner.start.pos.offset else t.pos.offset) t.raw) ∧
    ∀ (other : List UInt8) (n : Nat), source.take n = other.take n →
      tokensEndingBy source (n - 4) = tokensEndingBy other (n - 4) :=
  ⟨fun _ _ _ => stopsBehind_serve, fun _ _ => tokensEndingBy_congr⟩

/-- A scan hands out the blank of a text, and a second text is the same up to its last character. -/
theorem lookahead_bounded_blank :
    let source : List UInt8 := [0x61, 0x20, 0x62, 0x0A, 0x20, 0x20, 0x24];
    let other : List UInt8 := [0x61, 0x20, 0x62, 0x0A, 0x20, 0x20, 0xC3, 0xA9];
    let d := ((Desk.ofSource source).serveAll [.scan]).2;
    let t : Token := ⟨.space, ⟨1, 2, 1⟩, [0x20], ""⟩;
    (d.session.ended = none ∧ (d.serve .scan).1.token? = some t ∧
      source.take 6 = other.take 6) ∧
    (d.serve .scan).2.session.scanner.StopsBehind source 1 [0x20] ∧
    tokensEndingBy source (6 - 4) = tokensEndingBy other (6 - 4) := by
  intro source other d t
  have hended : d.session.ended = none := by decide +kernel
  have ht : (d.serve .scan).1.token? = some t := by decide +kernel
  have hshared : source.take 6 = other.take 6 := by decide
  obtain ⟨hstops, hsame⟩ := lookahead_bounded source
  exact ⟨⟨hended, ht, hshared⟩, hstops [.scan] .scan t hended ht, hsame other 6 hshared⟩

end AsmLexer

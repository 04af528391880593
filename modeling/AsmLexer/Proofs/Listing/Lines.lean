import AsmLexer.Listing
import AsmLexer.Proofs.Message
import AsmLexer.Proofs.Scanner.Outcome
import AsmLexer.Proofs.Text.Lines

/-!
# Listings have one line for each token

The line of a token is printable if its message is (`isPrintable_of_mem_line`), for everything else
on it is made of numbers, the name of a kind and quoted text. The tokens of a source have such
messages, whatever the source is: a message quotes all that it shows, but for a base marker, which
is printable itself (`isPrintable_of_mem_message`). So the newlines of a listing are those behind
its lines (`listing_lines`).
-/

set_option autoImplicit false

namespace AsmLexer

/-! ## Lines -/

section

variable {t : Token}

/-- A place is shown in characters that can be printed. -/
theorem isPrintable_of_mem_text {pos : Position} :
    ∀ c ∈ pos.text.toList, isPrintable c = true := by
  have hnumber (i : Int) : ∀ c ∈ (toString i).toList, isPrintable c = true :=
    fun c hc => isPrintable_of_mem_toString hc
  have hcolon : ":".toList.all isPrintable = true := by decide
  exact forall_mem_toList_append
    (forall_mem_toList_append (hnumber _) (List.all_eq_true.mp hcolon)) (hnumber _)

/-- A kind is shown in characters that can be printed. -/
theorem Kind.isPrintable_of_mem_display {kind : Kind} :
    ∀ c ∈ kind.display.toList, isPrintable c = true := by
  have hall : kind.display.toList.all isPrintable = true := by cases kind <;> decide
  exact List.all_eq_true.mp hall

/-- The line of a token can be printed if its message can. -/
theorem isPrintable_of_mem_line
    (hmessage : t.kind = .error → ∀ c ∈ t.message.toList, isPrintable c = true) :
    ∀ c ∈ t.line.toList, isPrintable c = true := by
  have hgap : ": ".toList.all isPrintable = true := by decide
  have hblank : " ".toList.all isPrintable = true := by decide
  have hplace : ∀ c ∈ (t.pos.text ++ ": ").toList, isPrintable c = true :=
    forall_mem_toList_append isPrintable_of_mem_text (List.all_eq_true.mp hgap)
  have hkind : ∀ c ∈ (t.pos.text ++ ": " ++ t.kind.display).toList, isPrintable c = true :=
    forall_mem_toList_append hplace Kind.isPrintable_of_mem_display
  refine forall_mem_toList_append
    (forall_mem_toList_append hkind (List.all_eq_true.mp hblank)) ?_
  split
  · exact hmessage ‹_›
  · exact fun c hc => isPrintable_of_mem_quoted hc

/-- The line of a token without an error is one line. -/
theorem newline_notMem_line (h : t.kind ≠ .error) : '\n' ∉ t.line.toList :=
  newline_notMem_of_isPrintable (isPrintable_of_mem_line fun hkind => absurd hkind h)

end

/-- A piece shows no character of the source that is not quoted, but for those of a base marker. -/
theorem Piece.Outcome.isPrintable_of_mem_message {p : Piece} (h : p.Outcome) :
    ∀ fault ∈ p.fault, ∀ c ∈ fault.message.toList, isPrintable c = true := by
  have hmarkers : bareMarkers.all (fun w => w.all isPrintable) = true := by decide
  cases h with
  | whole kind taken rest => exact fun fault hfault => nomatch hfault
  | faulty bad rest hsymbol hbad hbefore =>
    rintro fault ⟨⟩
    refine Fault.forall_mem_message (fun c hc => hc) ?_
    rintro literal rfl
    cases hsymbol
  | bareMarker hmarker hrest =>
    rintro fault ⟨⟩
    refine Fault.forall_mem_message (fun c hc => hc) ?_
    rintro literal ⟨⟩
    rw [String.toList_ofList]
    exact List.all_eq_true.mp (List.all_eq_true.mp hmarkers _ hmarker)

/-- The messages of all tokens can be printed. -/
theorem isPrintable_of_mem_message {pos : Position} {symbols : List Symbol} {t : Token}
    (ht : t ∈ tokensAt pos symbols) : ∀ c ∈ t.message.toList, isPrintable c = true := by
  have hempty : ∀ c ∈ "".toList, isPrintable c = true := by simp
  induction symbols using pieces_induction generalizing pos with
  | nil =>
    rw [tokensAt_nil, List.mem_singleton] at ht
    rw [ht]
    exact hempty
  | piece symbols hne ih =>
    rw [tokensAt_of_ne_nil pos hne, List.mem_cons] at ht
    rcases ht with rfl | ht
    · have hmessage := (nextPiece_outcome symbols).isPrintable_of_mem_message
      cases hfault : (nextPiece symbols).fault with
      | none =>
        simp only [Piece.token, hfault]
        exact hempty
      | some fault =>
        simp only [Piece.token, hfault]
        exact hmessage fault hfault
    · exact ih ht

/-! ## Listings -/

/-- The lines of some joined ones, and an empty one behind the last newline. -/
theorem splitOn_join {lines : List String} (h : ∀ line ∈ lines, '\n' ∉ line.toList) :
    (String.join (lines.map (· ++ "\n"))).toList.splitOn '\n' =
      lines.map String.toList ++ [[]] := by
  induction lines with
  | nil => simp
  | cons line lines ih =>
    rw [List.forall_mem_cons] at h
    have hnewline : "\n".toList = ['\n'] := by simp
    rw [List.map_cons, String.join_cons, String.toList_append, String.toList_append, hnewline,
      List.append_assoc, List.singleton_append, List.splitOn_append_cons_self_of_not_mem h.1,
      ih h.2]
    simp

/-- A listing is the lines of the tokens that are not skipped, each with a newline. -/
theorem listing_eq_join (skip : List Kind) (tokens : List Token) :
    listing skip tokens =
      String.join (((tokens.filter fun t => t.kind ∉ skip).map Token.line).map (· ++ "\n")) := by
  simp [listing, Function.comp_def]

/-- A dump is the listing that skips nothing. -/
theorem dump_eq_listing (tokens : List Token) : dump tokens = listing [] tokens := by
  simp [dump, listing]

/-- The lines of a listing are those of the tokens that are not skipped. -/
theorem splitOn_listing {tokens : List Token} (h : ∀ t ∈ tokens, '\n' ∉ t.line.toList)
    (skip : List Kind) :
    (listing skip tokens).toList.splitOn '\n' =
      (tokens.filter fun t => t.kind ∉ skip).map (fun t => t.line.toList) ++ [[]] := by
  rw [listing_eq_join, splitOn_join, List.map_map]
  · rfl
  · intro line hline
    obtain ⟨t, ht, rfl⟩ := List.mem_map.mp hline
    exact h t (List.mem_of_mem_filter ht)

/-- The lines of a dump are those of all tokens. -/
theorem splitOn_dump {tokens : List Token} (h : ∀ t ∈ tokens, '\n' ∉ t.line.toList) :
    (dump tokens).toList.splitOn '\n' = tokens.map (fun t => t.line.toList) ++ [[]] := by
  have hall : tokens.filter (fun t => t.kind ∉ ([] : List Kind)) = tokens :=
    List.filter_eq_self.mpr fun t _ => by simp
  rw [dump_eq_listing, splitOn_listing h, hall]

/-- A listing keeps those lines of a dump whose tokens are not skipped. -/
theorem lines_of_dump {tokens : List Token} (h : ∀ t ∈ tokens, '\n' ∉ t.line.toList)
    (skip : List Kind) :
    ((((dump tokens).toList.splitOn '\n').zip tokens).filter fun p => p.2.kind ∉ skip).map
        Prod.fst =
      (tokens.filter fun t => t.kind ∉ skip).map fun t => t.line.toList := by
  have hzip (ts : List Token) : (ts.map (fun t : Token => t.line.toList) ++ [[]]).zip ts =
      ts.map fun t : Token => (t.line.toList, t) := by
    induction ts with
    | nil => rfl
    | cons t ts ih => exact congrArg _ ih
  rw [splitOn_dump h, hzip, List.filter_map, List.map_map]
  rfl

/-- A listing holds nothing but newlines and what can be printed. -/
theorem isPrintable_of_mem_listing {tokens : List Token}
    (h : ∀ t ∈ tokens, ∀ c ∈ t.line.toList, isPrintable c = true) (skip : List Kind) :
    ∀ c ∈ (listing skip tokens).toList, c = '\n' ∨ isPrintable c = true := by
  intro c hc
  rw [listing, String.toList_join, List.mem_flatMap] at hc
  obtain ⟨line, hline, hc⟩ := hc
  obtain ⟨t, ht, rfl⟩ := List.mem_map.mp hline
  rw [String.toList_append, List.mem_append] at hc
  rcases hc with hc | hc
  · exact .inr (h t (List.mem_of_mem_filter ht) c hc)
  · exact .inl (by simpa using hc)

/-- The listing of any source has one newline for each token that is not skipped, its lines are
those of these tokens, and all else in it is printable. A dump is the listing that skips nothing,
and every other listing is the dump without the lines of the skipped tokens. -/
theorem listing_lines (source : List UInt8) (skip : List Kind) :
    (listing skip (tokenize source)).toList.count '\n' =
      ((tokenize source).filter fun t => t.kind ∉ skip).length ∧
    (listing skip (tokenize source)).toList.splitOn '\n' =
      ((tokenize source).filter fun t => t.kind ∉ skip).map (fun t => t.line.toList) ++ [[]] ∧
    (∀ c ∈ (listing skip (tokenize source)).toList, c = '\n' ∨ isPrintable c = true) ∧
    dump (tokenize source) = listing [] (tokenize source) ∧
    (listing skip (tokenize source)).toList.splitOn '\n' =
      ((((dump (tokenize source)).toList.splitOn '\n').zip (tokenize source)).filter
        fun p => p.2.kind ∉ skip).map Prod.fst ++ [[]] := by
  have hprintable : ∀ t ∈ tokenize source, ∀ c ∈ t.line.toList, isPrintable c = true := by
    intro t ht
    rw [tokenize_eq] at ht
    exact isPrintable_of_mem_line fun _ => isPrintable_of_mem_message ht
  have hline : ∀ t ∈ tokenize source, '\n' ∉ t.line.toList :=
    fun t ht => newline_notMem_of_isPrintable (hprintable t ht)
  have hlines := splitOn_listing hline skip
  refine ⟨?_, hlines, isPrintable_of_mem_listing hprintable skip, dump_eq_listing _, ?_⟩
  · have hcount : ((listing skip (tokenize source)).toList.splitOn '\n').length = _ :=
      length_splitOn _
    rw [hlines, List.length_append, List.length_map] at hcount
    exact (Nat.succ.inj hcount).symm
  · rw [lines_of_dump hline skip, hlines]

end AsmLexer

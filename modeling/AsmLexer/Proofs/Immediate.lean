import AsmLexer.Proofs.Extent
import AsmLexer.Proofs.Grammar.Underway

/-!
# Immediate values

At a digit the next token is decided by the longest run of well-formed characters without a
separator (`UnseparatedRun`) and by what stops it. The run as a whole is an immediate value, or a
base marker with no digits, or else there is a fault behind its longest beginning of an immediate
value: at the next character of the run, or at the malformed byte that stops it (`NumberToken`).
-/

set_option autoImplicit false

namespace AsmLexer

/-! ## Definitions -/

/-- The longest run of well-formed characters without a separator that a text begins with, and the
rest of the text. -/
structure UnseparatedRun (text : List UInt8) (w : List Char) (behind : List UInt8) : Prop where
  text_eq : text = Utf8.encode w ++ behind
  unseparated : ∀ c ∈ w, ¬ isSeparator c
  longest : ∀ v rest, text = Utf8.encode v ++ rest → (∀ c ∈ v, ¬ isSeparator c) → v <+: w
  stops : Kind.immediate.Allows behind ∨ ∃ byte, Utf8.first? behind = some (.malformed byte)

/-- The place behind some characters that stay on the line. -/
def Position.past (p : Position) (cs : List Char) : Position :=
  ⟨p.line, p.column + cs.length, p.offset + (Utf8.encode cs).length⟩

/-- The token that begins at a place with a run of characters and what stands behind the run. -/
structure NumberToken (p : Position) (w : List Char) (behind : List UInt8) (t : Token) : Prop where
  of_numeral : Numeral w → Kind.immediate.Allows behind →
    t = ⟨.immediate, p, Utf8.encode w, ""⟩
  of_bareMarker : w ∈ bareMarkers → Kind.immediate.Allows behind →
    t = ⟨.error, p, Utf8.encode w, (Fault.malformedImmediate (String.ofList w)).message⟩
  otherwise : ¬ (Kind.immediate.Allows behind ∧ (Numeral w ∨ w ∈ bareMarkers)) →
    ∃ u, LongestBegun u w ∧
      ((∃ c more, w = u ++ c :: more ∧
        t = ⟨.error, p.past u, Utf8.encode (u ++ [c]), (faultAt u c).message⟩) ∨
      (u = w ∧ ∃ byte, Utf8.first? behind = some (.malformed byte) ∧
        t = ⟨.error, p.past u, Utf8.encode u ++ [byte], (Fault.invalidByte byte).message⟩))

/-! ## The run -/

/-- No run without separators goes on behind one that stops. -/
theorem prefix_of_stops {v w : List Char} {rest behind : List UInt8}
    (htext : Utf8.encode v ++ rest = Utf8.encode w ++ behind) (hv : ∀ c ∈ v, ¬ isSeparator c)
    (hstops : ¬ BeginsWith (fun c => ¬ isSeparator c) behind) : v <+: w := by
  induction v generalizing w with
  | nil => exact List.nil_prefix
  | cons c v ih =>
    rw [List.forall_mem_cons] at hv
    cases w with
    | nil =>
      obtain rfl : Utf8.encode (c :: v) ++ rest = behind := htext
      exact absurd (beginsWith_encode_cons.mpr hv.1) hstops
    | cons d w =>
      have hsymbols := congrArg Utf8.symbols htext
      rw [symbols_encode_cons, symbols_encode_cons, List.cons.injEq] at hsymbols
      obtain ⟨⟨⟩, hrest⟩ := hsymbols
      have hsame := congrArg (List.flatMap Symbol.bytes) hrest
      rw [Utf8.bytes_symbols, Utf8.bytes_symbols] at hsame
      rw [List.cons_prefix_cons]
      exact ⟨rfl, ih hsame hv.2⟩

/-- Every text begins with a longest run without separators. -/
theorem exists_unseparatedRun (text : List UInt8) :
    ∃ w behind, UnseparatedRun text w behind := by
  obtain ⟨w, behind, rfl, hall, hstops⟩ := exists_span (fun c => ¬ isSeparator c) text
  refine ⟨w, behind, rfl, hall, fun v rest htext hv => prefix_of_stops htext.symm hv hstops, ?_⟩
  rw [immediate_allows_iff, first?_eq_head?]
  cases hhead : (Utf8.symbols behind).head? with
  | none => exact .inl fun s hs => nomatch hs
  | some s =>
    cases s with
    | malformed byte => exact .inr ⟨byte, rfl⟩
    | char c =>
      left
      rintro _ ⟨⟩
      by_contra hc
      exact hstops (beginsWith_iff.mpr ⟨c, hc, hhead⟩)

/-! ## The token -/

/-- Characters that are no separators stay on the line. -/
theorem afterAll_map_char (p : Position) {u : List Char} (h : ∀ c ∈ u, ¬ isSeparator c) :
    p.afterAll (u.map .char) = p.past u := by
  have hline : .char '\n' ∉ u.map Symbol.char := by
    intro hmem
    obtain ⟨c, hc, ⟨⟩⟩ := List.mem_map.mp hmem
    exact h _ hc (by decide)
  rw [Position.afterAll_of_notMem p hline, Utf8.bytes_map_char, List.length_map]
  rfl

/-- The token of a fault behind some characters is an error at the place behind them. -/
theorem token_faulty (fault : Fault) (bad : Symbol) (rest : List Symbol) (p : Position)
    {u : List Char} (h : ∀ c ∈ u, ¬ isSeparator c) :
    (Piece.faulty fault (u.map .char) bad rest).token p =
      ⟨.error, p.past u, Utf8.encode u ++ bad.bytes, fault.message⟩ := by
  have hraw : (Piece.faulty fault (u.map .char) bad rest).raw = Utf8.encode u ++ bad.bytes := by
    show (u.map Symbol.char ++ [bad]).flatMap Symbol.bytes = _
    rw [List.flatMap_append, Utf8.bytes_map_char, List.flatMap_singleton]
  rw [← afterAll_map_char p h, ← hraw]
  rfl

section

variable {text behind : List UInt8} {w : List Char}

/-- A run is read as its characters. -/
theorem UnseparatedRun.symbols_text (h : UnseparatedRun text w behind) :
    Utf8.symbols text = w.map .char ++ Utf8.symbols behind := by
  rw [h.text_eq, Utf8.symbols_encode_append]

/-- A run that is a numeral is an immediate value. -/
theorem token_numeral (h : UnseparatedRun text w behind) (hnumeral : Numeral w)
    (hallows : Kind.immediate.Allows behind) (p : Position) :
    (nextPiece (Utf8.symbols text)).token p = ⟨.immediate, p, Utf8.encode w, ""⟩ := by
  rw [h.text_eq, hnumeral.nextPiece_eq hallows, ← Utf8.bytes_map_char]
  rfl

/-- A run that is a bare base marker is a malformed immediate value. -/
theorem token_bareMarker (h : UnseparatedRun text w behind) (hmarker : w ∈ bareMarkers)
    (hallows : Kind.immediate.Allows behind) (p : Position) :
    (nextPiece (Utf8.symbols text)).token p =
      ⟨.error, p, Utf8.encode w, (Fault.malformedImmediate (String.ofList w)).message⟩ := by
  obtain ⟨base, hdigits, hshort⟩ := exists_base_of_bareMarker hmarker
  have hseparates := immediate_allows_iff.mp hallows
  rw [h.symbols_text, hdigits.nextPiece_eq, digits_piece_stop base hseparates,
    immediate_eq_malformed _ hshort, ← Utf8.bytes_map_char]
  rfl

/-- The token at a digit, from the run that begins with it. -/
theorem numberToken {state : State} {c : Char} (h : UnseparatedRun text (c :: w) behind)
    (hstart : Underway state [c]) (p : Position) :
    NumberToken p (c :: w) behind ((nextPiece (Utf8.symbols text)).token p) := by
  refine ⟨fun hnumeral hallows => token_numeral h hnumeral hallows p,
    fun hmarker hallows => token_bareMarker h hmarker hallows p, fun hother => ?_⟩
  have hw : ∀ d ∈ w, ¬ isSeparator d := fun d hd => h.unseparated d (List.mem_cons_of_mem c hd)
  obtain ⟨state', u, v, hsplit, hunderway, hstops⟩ := hstart.exists_stop hw
  rw [List.singleton_append] at hsplit
  have hu : ∀ d ∈ u, ¬ isSeparator d := by
    intro d hd
    apply h.unseparated
    rw [hsplit]
    exact List.mem_append_left v hd
  have hlongest := hunderway.longestBegun hstops
  rw [← hsplit] at hlongest
  refine ⟨u, hlongest, ?_⟩
  cases v with
  | cons d more =>
    have hbytes : Utf8.encode [d] = (Symbol.char d).bytes := List.append_nil _
    refine .inl ⟨d, more, hsplit, ?_⟩
    rw [h.symbols_text, hsplit, List.map_append, List.append_assoc, List.map_cons, List.cons_append,
      hstops d rfl, token_faulty _ _ _ p hu, Utf8.encode_append, hbytes]
  | nil =>
    rw [List.append_nil] at hsplit
    obtain ⟨byte, hbyte⟩ : ∃ byte, Utf8.first? behind = some (.malformed byte) := by
      refine h.stops.resolve_left fun hallows => hother ⟨hallows, ?_⟩
      rw [hsplit]
      exact hunderway.numeral_or_bareMarker
    obtain ⟨more, hmore⟩ := List.head?_eq_some_iff.mp ((first?_eq_head? behind).symm.trans hbyte)
    refine .inr ⟨hsplit.symm, byte, hbyte, ?_⟩
    rw [h.symbols_text, hsplit, hmore, hunderway.nextPiece_malformed, token_faulty _ _ _ p hu]
    rfl

end

/-- At a digit the run of characters without a separator decides the token. -/
theorem tokenize_number {source : List UInt8} {before after : List Token} {t : Token}
    (h : tokenize source = before ++ t :: after)
    (hdigit : BeginsWith (fun c => '0' ≤ c ∧ c ≤ '9')
      (source.drop (startOffset source before))) :
    ∃ (p : Position) (w : List Char) (behind : List UInt8), p.Exact source ∧
      p.offset = startOffset source before ∧
      UnseparatedRun (source.drop (startOffset source before)) w behind ∧
      NumberToken p w behind t := by
  obtain ⟨front, symbols, hoccurs⟩ := exists_occurrence h
  obtain ⟨hexact, hoffset⟩ := hoccurs.exact_start
  obtain ⟨w, behind, hrun⟩ := exists_unseparatedRun (source.drop (startOffset source before))
  refine ⟨_, w, behind, hexact, hoffset, hrun, ?_⟩
  obtain ⟨c, rest, hc, htext⟩ := hdigit
  have hseparator : ¬ isSeparator c := fun hseparator =>
    not_isNameChar_of_isSeparator hseparator (isNameChar_of_digit hc.1 hc.2)
  -- the digit alone is a run without separators, and the longest one goes on from it
  obtain ⟨w, rfl⟩ : [c] <+: w := by
    refine hrun.longest [c] rest ?_ (List.forall_mem_singleton.mpr hseparator)
    rw [htext, Utf8.encode, List.flatMap_singleton]
  rw [hoccurs.token_eq, ← hoccurs.drop_start]
  by_cases hzero : c = '0'
  · rw [hzero] at hrun ⊢
    exact numberToken hrun .zero _
  · have hone : '1' ≤ c := by
      have hlow : 48 ≤ c.toNat := hc.1
      have hne : c.toNat ≠ 48 := fun heq => hzero (Char.toNat_inj.mp heq)
      show 49 ≤ c.toNat
      omega
    exact numberToken hrun (.digits (.decimal ⟨hone, hc.2⟩)) _

/-- An octal number with a digit that is none, on the second line and in front of a comma. -/
theorem tokenize_number_octal :
    let source : List UInt8 := [0x0A, 0x30, 0x37, 0x39, 0x31, 0x2C];
    let before : List Token := [⟨.endOfLine, ⟨1, 1, 0⟩, [0x0A], ""⟩];
    let t : Token := ⟨.error, ⟨2, 3, 3⟩, [0x30, 0x37, 0x39],
      "illegal symbol '9' in base 8 immediate value"⟩;
    let after : List Token := [⟨.endOfFile, ⟨2, 6, 6⟩, [], ""⟩];
    (tokenize source = before ++ t :: after ∧
      BeginsWith (fun c => '0' ≤ c ∧ c ≤ '9') (source.drop (startOffset source before))) ∧
      ∃ (p : Position) (w : List Char) (behind : List UInt8), p.Exact source ∧
        p.offset = startOffset source before ∧
        UnseparatedRun (source.drop (startOffset source before)) w behind ∧
        NumberToken p w behind t := by
  intro source before t after
  have htokens : tokenize source = before ++ t :: after := by decide +kernel
  have hdigit : BeginsWith (fun c => '0' ≤ c ∧ c ≤ '9')
      (source.drop (startOffset source before)) :=
    ⟨'0', [0x37, 0x39, 0x31, 0x2C], by decide, by decide +kernel⟩
  exact ⟨⟨htokens, hdigit⟩, tokenize_number htokens hdigit⟩

end AsmLexer

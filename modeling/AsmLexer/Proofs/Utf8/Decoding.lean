import AsmLexer.Proofs.Walk

/-!
# Decoding at an offset

Reading one symbol at an offset finds nothing exactly behind the end of the source, a character
exactly where its encoding stands, and otherwise the byte at that offset (`first?_eq_char_iff`,
`first?_eq_malformed_iff`). So if a source is read symbol by symbol up to its end and no byte of it
is malformed, then it is the encoding of the characters that were read (`decodesFrom_iff`).
-/

set_option autoImplicit false

namespace AsmLexer.Utf8

/-- Reading symbol by symbol from an offset up to the end of a source gives these characters and no
malformed byte. -/
inductive DecodesFrom (source : List UInt8) : Nat → List Char → Prop where
  | done {offset : Nat} : first? (source.drop offset) = none → DecodesFrom source offset []
  | next {offset : Nat} {c : Char} {cs : List Char} :
    first? (source.drop offset) = some (.char c) →
    DecodesFrom source (offset + (Symbol.char c).size) cs → DecodesFrom source offset (c :: cs)

section

variable {source : List UInt8}

/-! ## One symbol -/

/-- There is a first symbol unless the source is empty. -/
theorem first?_eq_none_iff : first? source = none ↔ source = [] := by
  cases source with
  | nil => exact iff_of_true rfl rfl
  | cons byte rest => simp [first?]

/-- A character is read exactly where its encoding stands. -/
theorem first?_eq_char_iff {c : Char} :
    first? source = some (.char c) ↔ String.utf8EncodeChar c <+: source := by
  constructor
  · intro h
    cases source with
    | nil => cases h
    | cons byte rest =>
      have hsymbol : symbolAt byte rest = .char c := Option.some.inj h
      have hbytes := bytes_symbolAt byte rest
      rw [hsymbol] at hbytes
      exact ⟨_, hbytes⟩
  · rintro ⟨rest, rfl⟩
    obtain ⟨byte, tail, hencoding⟩ := List.exists_cons_of_ne_nil (@String.utf8EncodeChar_ne_nil c)
    rw [hencoding]
    exact congrArg some (symbolAt_of_encoding hencoding rest)

/-- A byte is malformed exactly where no encoding stands. -/
theorem first?_eq_malformed_iff {byte : UInt8} :
    first? source = some (.malformed byte) ↔
      source.head? = some byte ∧ ∀ c, ¬ String.utf8EncodeChar c <+: source := by
  simp only [← first?_eq_char_iff]
  cases source with
  | nil => simp [first?]
  | cons first rest =>
    constructor
    · intro h
      have hsymbol : symbolAt first rest = .malformed byte := Option.some.inj h
      obtain ⟨rfl, -⟩ := eq_of_symbolAt_malformed hsymbol
      refine ⟨rfl, fun c hc => ?_⟩
      rw [h] at hc
      cases hc
    · rintro ⟨hhead, hnone⟩
      obtain rfl : first = byte := Option.some.inj hhead
      cases hsymbol : symbolAt first rest with
      | char c => exact absurd (congrArg some hsymbol) (hnone c)
      | malformed bad =>
        obtain ⟨rfl, -⟩ := eq_of_symbolAt_malformed hsymbol
        exact congrArg some hsymbol

/-- The bytes of a surrogate begin no character, and neither does an overlong form. -/
example : first? [0xED, 0xA0, 0x80] = some (.malformed 0xED) ∧
    first? [0xC0, 0xAF] = some (.malformed 0xC0) := by decide

/-! ## All symbols -/

/-- The encoding of a text is that of its first character and then of the others. -/
theorem encode_cons (c : Char) (cs : List Char) :
    encode (c :: cs) = String.utf8EncodeChar c ++ encode cs :=
  List.flatMap_cons

/-- No two texts are encoded alike. -/
theorem encode_injective : Function.Injective encode := by
  intro cs ds h
  have hsymbols := congrArg symbols h
  rw [symbols_encode, symbols_encode] at hsymbols
  exact List.map_injective_iff.mpr (fun c d => Symbol.char.inj) hsymbols

/-- Exactly the encoding of a text is decoded, and as this text. -/
theorem decodesFrom_iff {offset : Nat} {cs : List Char} :
    DecodesFrom source offset cs ↔ source.drop offset = encode cs := by
  constructor
  · intro h
    induction h with
    | done hend => exact first?_eq_none_iff.mp hend
    | @next offset c cs hchar _ ih =>
      obtain ⟨rest, hrest⟩ := first?_eq_char_iff.mp hchar
      rw [← List.drop_drop, ← hrest, ← Symbol.length_bytes] at ih
      rw [encode_cons, ← hrest, ← ih]
      exact congrArg _ List.drop_left.symm
  · intro h
    induction cs generalizing offset with
    | nil => exact .done (first?_eq_none_iff.mpr h)
    | cons c cs ih =>
      rw [encode_cons] at h
      refine .next (first?_eq_char_iff.mpr ⟨encode cs, h.symm⟩) (ih ?_)
      rw [← List.drop_drop, h, ← Symbol.length_bytes]
      exact List.drop_left

end

/-- At every offset of a source the decoder finds the end, a character whose encoding stands there,
or else the byte there, and so it reads exactly the encoded texts. -/
theorem decodes_exactly (source : List UInt8) (offset : Nat) :
    (first? (source.drop offset) = none ↔ source.length ≤ offset) ∧
    (∀ c n, first? (source.drop offset) = some (.char c) ∧ (Symbol.char c).size = n ↔
      (String.utf8EncodeChar c).length = n ∧
        (source.drop offset).take n = String.utf8EncodeChar c) ∧
    (∀ byte, first? (source.drop offset) = some (.malformed byte) ↔
      source[offset]? = some byte ∧ ∀ c, ¬ String.utf8EncodeChar c <+: source.drop offset) ∧
    (∀ cs, DecodesFrom source 0 cs ↔ source = encode cs) ∧
    ∀ cs ds, DecodesFrom (encode cs) 0 ds ↔ ds = cs := by
  refine ⟨?_, ?_, ?_, ?_, ?_⟩
  · rw [first?_eq_none_iff, List.drop_eq_nil_iff]
  · intro c n
    have hsize : (String.utf8EncodeChar c).length = (Symbol.char c).size :=
      String.length_utf8EncodeChar c
    rw [first?_eq_char_iff, hsize, and_comm]
    refine and_congr_right ?_
    rintro rfl
    rw [← hsize, List.prefix_iff_eq_take, eq_comm]
  · intro byte
    rw [first?_eq_malformed_iff, List.head?_drop]
  · intro cs
    rw [decodesFrom_iff, List.drop_zero]
  · intro cs ds
    rw [decodesFrom_iff, List.drop_zero, encode_injective.eq_iff, eq_comm]

end AsmLexer.Utf8

import AsmLexer.Text.Utf8
import Mathlib.Data.List.Basic
import Mathlib.Data.List.TakeWhile

/-!
# Reading and encoding are inverse

A symbol is read by the table `Utf8.lead?` and written by the encoding of its character. The two
agree: what is read off the front of a source is written back as the bytes that were there
(`bytes_symbolAt`), and an encoded character is read as that character whatever follows it
(`symbolAt_of_encoding`).

Both rest on one description of the longer sequences. `lead?_cases` lists what a first byte can
announce, and `Lead.Fits` says which bytes complete the announcement.
-/

set_option autoImplicit false

namespace AsmLexer.Utf8

/-- The bytes that complete the sequence a first byte announces. -/
structure Lead.Fits (lead : Lead) (tail : List UInt8) : Prop where
  length_eq : tail.length = lead.trailing
  second : ∀ byte ∈ tail.head?, lead.low ≤ byte.toNat ∧ byte.toNat ≤ lead.high
  continued : ∀ byte ∈ tail.tail, isContinuation byte

/-- What a first byte can announce: two, three or four bytes, and which second byte. -/
theorem lead?_cases {byte : UInt8} {lead : Lead} (h : lead? byte = some lead) :
    (lead.trailing = 1 ∧ byte.toNat = 0xC0 + lead.payload ∧
        0xC2 ≤ byte.toNat ∧ byte.toNat < 0xE0 ∧ lead.low = 0x80 ∧ lead.high = 0xBF) ∨
      (lead.trailing = 2 ∧ byte.toNat = 0xE0 + lead.payload ∧ byte.toNat < 0xF0 ∧
        (byte.toNat = 0xE0 ∧ lead.low = 0xA0 ∨ byte.toNat ≠ 0xE0 ∧ lead.low = 0x80) ∧
        (byte.toNat = 0xED ∧ lead.high = 0x9F ∨ byte.toNat ≠ 0xED ∧ lead.high = 0xBF)) ∨
      (lead.trailing = 3 ∧ byte.toNat = 0xF0 + lead.payload ∧ byte.toNat < 0xF5 ∧
        (byte.toNat = 0xF0 ∧ lead.low = 0x90 ∨ byte.toNat ≠ 0xF0 ∧ lead.low = 0x80) ∧
        (byte.toNat = 0xF4 ∧ lead.high = 0x8F ∨ byte.toNat ≠ 0xF4 ∧ lead.high = 0xBF)) := by
  unfold lead? at h
  dsimp only at h
  repeat' split at h
  all_goals simp only [reduceCtorEq, Option.some.injEq] at h
  all_goals subst h; dsimp only; omega

/-- Every byte from 0xC2 to 0xF4 announces a longer sequence. -/
theorem exists_lead {byte : UInt8} (hlow : 0xC2 ≤ byte.toNat) (hhigh : byte.toNat < 0xF5) :
    ∃ lead, lead? byte = some lead := by
  rw [← Option.isSome_iff_exists]
  unfold lead?
  dsimp only
  repeat' split
  all_goals first | rfl | omega

/-- What continues a sequence is found where the source says it is. -/
theorem Lead.tail_isPrefix (lead : Lead) (rest : List UInt8) : lead.tail rest <+: rest := by
  cases rest with
  | nil => exact List.nil_prefix
  | cons byte rest =>
    simp only [Lead.tail]
    split
    · exact (List.prefix_cons_inj byte).mpr
        ((List.takeWhile_prefix _).trans (List.take_prefix _ _))
    · exact List.nil_prefix

/-- A tail that is long enough completes the sequence. -/
theorem Lead.fits_tail {lead : Lead} {rest : List UInt8}
    (h : (lead.tail rest).length = lead.trailing) : lead.Fits (lead.tail rest) := by
  suffices hbytes : (∀ byte ∈ (lead.tail rest).head?,
      lead.low ≤ byte.toNat ∧ byte.toNat ≤ lead.high) ∧
      ∀ byte ∈ (lead.tail rest).tail, isContinuation byte from ⟨h, hbytes.1, hbytes.2⟩
  cases rest with
  | nil => simp [Lead.tail]
  | cons byte rest =>
    simp only [Lead.tail]
    split
    · refine ⟨?_, List.all_eq_true.mp List.all_takeWhile⟩
      rintro _ ⟨⟩
      assumption
    · simp

/-- The bytes that complete a sequence are its tail, whatever follows them. -/
theorem Lead.Fits.tail_append {lead : Lead} {tail : List UInt8} (h : lead.Fits tail)
    (hpos : 0 < lead.trailing) (rest : List UInt8) : lead.tail (tail ++ rest) = tail := by
  cases tail with
  | nil => exact absurd h.length_eq hpos.ne
  | cons byte tail =>
    have hlength : tail.length = lead.trailing - 1 := Nat.eq_sub_of_add_eq h.length_eq
    have hcontinued : ∀ next ∈ tail, isContinuation next := h.continued
    simp only [List.cons_append, Lead.tail, if_pos (h.second byte rfl)]
    rw [← hlength, List.take_left, List.takeWhile_eq_self_iff.mpr hcontinued]

/-! ## Encodings by their length -/

/-- A valid code point is that of its character. -/
theorem val_ofNat {n : Nat} (h : n.isValidChar) : (Char.ofNat n).val.toNat = n := by
  rw [Char.ofNat, dif_pos h]
  rfl

/-- Code points of seven bits are encoded in one byte. -/
theorem encoding_one {n : Nat} (h : n < 0x80) :
    String.utf8EncodeChar (Char.ofNat n) = [UInt8.ofNat n] := by
  have hval := val_ofNat (n := n) (by simp only [Nat.isValidChar]; omega)
  simp only [String.utf8EncodeChar, hval]
  rw [if_pos (by omega)]

/-- Code points of eleven bits are encoded in two bytes. -/
theorem encoding_two {n : Nat} (hlow : 0x80 ≤ n) (hhigh : n < 0x800) :
    String.utf8EncodeChar (Char.ofNat n) =
      [UInt8.ofNat (n / 64 + 0xC0), UInt8.ofNat (n % 64 + 0x80)] := by
  have hval := val_ofNat (n := n) (by simp only [Nat.isValidChar]; omega)
  simp only [String.utf8EncodeChar, hval]
  rw [if_neg (by omega), if_pos (by omega), Nat.mod_eq_of_lt (by omega : n / 64 < 32)]

/-- Code points of sixteen bits are encoded in three bytes, unless they are surrogates. -/
theorem encoding_three {n : Nat} (hlow : 0x800 ≤ n) (hhigh : n < 0x10000)
    (hscalar : n < 0xD800 ∨ 0xDFFF < n) :
    String.utf8EncodeChar (Char.ofNat n) =
      [UInt8.ofNat (n / 4096 + 0xE0), UInt8.ofNat (n / 64 % 64 + 0x80),
        UInt8.ofNat (n % 64 + 0x80)] := by
  have hval := val_ofNat (n := n) (by simp only [Nat.isValidChar]; omega)
  simp only [String.utf8EncodeChar, hval]
  rw [if_neg (by omega), if_neg (by omega), if_pos (by omega),
    Nat.mod_eq_of_lt (by omega : n / 4096 < 16)]

/-- Code points above sixteen bits are encoded in four bytes. -/
theorem encoding_four {n : Nat} (hlow : 0x10000 ≤ n) (hhigh : n < 0x110000) :
    String.utf8EncodeChar (Char.ofNat n) =
      [UInt8.ofNat (n / 262144 + 0xF0), UInt8.ofNat (n / 4096 % 64 + 0x80),
        UInt8.ofNat (n / 64 % 64 + 0x80), UInt8.ofNat (n % 64 + 0x80)] := by
  have hval := val_ofNat (n := n) (by simp only [Nat.isValidChar]; omega)
  simp only [String.utf8EncodeChar, hval]
  rw [if_neg (by omega), if_neg (by omega), if_neg (by omega),
    Nat.mod_eq_of_lt (by omega : n / 262144 < 8)]

/-! ## Both directions -/

/-- A completed sequence is the encoding of its code point. -/
theorem Lead.Fits.encode_codePoint {byte : UInt8} {lead : Lead} {tail : List UInt8}
    (h : lead.Fits tail) (hlead : lead? byte = some lead) :
    String.utf8EncodeChar (Char.ofNat (lead.codePoint tail)) = byte :: tail := by
  have hcontinued := h.continued
  simp only [isContinuation, Bool.and_eq_true, decide_eq_true_eq] at hcontinued
  obtain htwo | hthree | hfour := lead?_cases hlead
  · obtain ⟨b, rfl⟩ := List.length_eq_one_iff.mp (h.length_eq.trans htwo.1)
    have hb := h.second b rfl
    have hvalue : lead.codePoint [b] = lead.payload * 64 + b.toNat % 64 := rfl
    rw [hvalue, encoding_two (by omega) (by omega)]
    simp only [List.cons.injEq, ← UInt8.toNat_inj, UInt8.toNat_ofNat', and_true]
    omega
  · obtain ⟨b, c, rfl⟩ := List.length_eq_two.mp (h.length_eq.trans hthree.1)
    have hb := h.second b rfl
    have hc := hcontinued c List.mem_cons_self
    have hvalue : lead.codePoint [b, c] =
        (lead.payload * 64 + b.toNat % 64) * 64 + c.toNat % 64 := rfl
    rw [hvalue, encoding_three (by omega) (by omega) (by omega)]
    simp only [List.cons.injEq, ← UInt8.toNat_inj, UInt8.toNat_ofNat', and_true]
    omega
  · obtain ⟨b, c, d, rfl⟩ := List.length_eq_three.mp (h.length_eq.trans hfour.1)
    have hb := h.second b rfl
    have hc := hcontinued c List.mem_cons_self
    have hd := hcontinued d (List.mem_cons_of_mem c List.mem_cons_self)
    have hvalue : lead.codePoint [b, c, d] =
        ((lead.payload * 64 + b.toNat % 64) * 64 + c.toNat % 64) * 64 + d.toNat % 64 := rfl
    rw [hvalue, encoding_four (by omega) (by omega)]
    simp only [List.cons.injEq, ← UInt8.toNat_inj, UInt8.toNat_ofNat', and_true]
    omega

section

variable {n : Nat} {lead : Lead}

/-- An encoding in two bytes fits what its first byte announces and is read back. -/
theorem fits_two (hlow : 0x80 ≤ n) (hhigh : n < 0x800)
    (hlead : lead? (UInt8.ofNat (n / 64 + 0xC0)) = some lead) :
    lead.Fits [UInt8.ofNat (n % 64 + 0x80)] ∧
      lead.codePoint [UInt8.ofNat (n % 64 + 0x80)] = n := by
  have hcases := lead?_cases hlead
  rw [UInt8.toNat_ofNat'] at hcases
  refine ⟨⟨?_, ?_, ?_⟩, ?_⟩
  · simp only [List.length_cons, List.length_nil]
    omega
  · simp only [List.head?_cons, Option.mem_some_iff, forall_eq', UInt8.toNat_ofNat']
    omega
  · simp
  · simp only [Lead.codePoint, List.foldl_cons, List.foldl_nil, UInt8.toNat_ofNat']
    omega

/-- An encoding in three bytes fits what its first byte announces and is read back. -/
theorem fits_three (hlow : 0x800 ≤ n) (hhigh : n < 0x10000) (hscalar : n < 0xD800 ∨ 0xDFFF < n)
    (hlead : lead? (UInt8.ofNat (n / 4096 + 0xE0)) = some lead) :
    lead.Fits [UInt8.ofNat (n / 64 % 64 + 0x80), UInt8.ofNat (n % 64 + 0x80)] ∧
      lead.codePoint [UInt8.ofNat (n / 64 % 64 + 0x80), UInt8.ofNat (n % 64 + 0x80)] = n := by
  have hcases := lead?_cases hlead
  rw [UInt8.toNat_ofNat'] at hcases
  refine ⟨⟨?_, ?_, ?_⟩, ?_⟩
  · simp only [List.length_cons, List.length_nil]
    omega
  · simp only [List.head?_cons, Option.mem_some_iff, forall_eq', UInt8.toNat_ofNat']
    omega
  · simp only [List.tail_cons, List.forall_mem_singleton, isContinuation, UInt8.toNat_ofNat',
      Bool.and_eq_true, decide_eq_true_eq]
    omega
  · simp only [Lead.codePoint, List.foldl_cons, List.foldl_nil, UInt8.toNat_ofNat']
    omega

/-- An encoding in four bytes fits what its first byte announces and is read back. -/
theorem fits_four (hlow : 0x10000 ≤ n) (hhigh : n < 0x110000)
    (hlead : lead? (UInt8.ofNat (n / 262144 + 0xF0)) = some lead) :
    lead.Fits [UInt8.ofNat (n / 4096 % 64 + 0x80), UInt8.ofNat (n / 64 % 64 + 0x80),
        UInt8.ofNat (n % 64 + 0x80)] ∧
      lead.codePoint [UInt8.ofNat (n / 4096 % 64 + 0x80), UInt8.ofNat (n / 64 % 64 + 0x80),
        UInt8.ofNat (n % 64 + 0x80)] = n := by
  have hcases := lead?_cases hlead
  rw [UInt8.toNat_ofNat'] at hcases
  refine ⟨⟨?_, ?_, ?_⟩, ?_⟩
  · simp only [List.length_cons, List.length_nil]
    omega
  · simp only [List.head?_cons, Option.mem_some_iff, forall_eq', UInt8.toNat_ofNat']
    omega
  · simp only [List.tail_cons, List.mem_cons, List.not_mem_nil, or_false, forall_eq_or_imp,
      forall_eq, isContinuation, UInt8.toNat_ofNat', Bool.and_eq_true, decide_eq_true_eq]
    omega
  · simp only [Lead.codePoint, List.foldl_cons, List.foldl_nil, UInt8.toNat_ofNat']
    omega

end

/-- The encoding of a character past the first 128 is an announcement and what completes it. -/
theorem exists_fits_of_encoding {c : Char} (h : 0x80 ≤ c.toNat) :
    ∃ byte tail lead, String.utf8EncodeChar c = byte :: tail ∧ lead? byte = some lead ∧
      lead.Fits tail ∧ lead.codePoint tail = c.toNat := by
  obtain ⟨n, hn, rfl⟩ : ∃ n, n = c.toNat ∧ c = Char.ofNat n := ⟨_, rfl, c.ofNat_toNat.symm⟩
  have hvalid : n < 0xD800 ∨ 0xDFFF < n ∧ n < 0x110000 := hn ▸ (Char.ofNat n).valid
  rw [← hn] at h ⊢
  by_cases htwo : n < 0x800
  · obtain ⟨lead, hlead⟩ := @exists_lead (UInt8.ofNat (n / 64 + 0xC0))
      (by rw [UInt8.toNat_ofNat']; omega) (by rw [UInt8.toNat_ofNat']; omega)
    exact ⟨_, _, lead, encoding_two h htwo, hlead, fits_two h htwo hlead⟩
  by_cases hthree : n < 0x10000
  · have hscalar : n < 0xD800 ∨ 0xDFFF < n := hvalid.imp_right And.left
    obtain ⟨lead, hlead⟩ := @exists_lead (UInt8.ofNat (n / 4096 + 0xE0))
      (by rw [UInt8.toNat_ofNat']; omega) (by rw [UInt8.toNat_ofNat']; omega)
    exact ⟨_, _, lead, encoding_three (Nat.le_of_not_lt htwo) hthree hscalar, hlead,
      fits_three (Nat.le_of_not_lt htwo) hthree hscalar hlead⟩
  · have hhigh : n < 0x110000 := by omega
    obtain ⟨lead, hlead⟩ := @exists_lead (UInt8.ofNat (n / 262144 + 0xF0))
      (by rw [UInt8.toNat_ofNat']; omega) (by rw [UInt8.toNat_ofNat']; omega)
    exact ⟨_, _, lead, encoding_four (Nat.le_of_not_lt hthree) hhigh, hlead,
      fits_four (Nat.le_of_not_lt hthree) hhigh hlead⟩

/-- A byte of the first 128 is a character by itself. -/
theorem symbolAt_of_lt {byte : UInt8} (h : byte.toNat < 0x80) (rest : List UInt8) :
    symbolAt byte rest = .char (Char.ofNat byte.toNat) := by
  rw [symbolAt, if_pos h]

/-- An encoded character is read as that character, whatever follows it. -/
theorem symbolAt_of_encoding {c : Char} {byte : UInt8} {tail : List UInt8}
    (h : String.utf8EncodeChar c = byte :: tail) (rest : List UInt8) :
    symbolAt byte (tail ++ rest) = .char c := by
  by_cases hc : c.toNat < 0x80
  · have hone := encoding_one hc
    rw [Char.ofNat_toNat, h, List.cons.injEq] at hone
    have hbyte : byte.toNat = c.toNat := by
      rw [hone.1, UInt8.toNat_ofNat']
      omega
    rw [symbolAt_of_lt (by omega), hbyte, Char.ofNat_toNat]
  · obtain ⟨first, more, lead, hencoding, hlead, hfits, hvalue⟩ :=
      exists_fits_of_encoding (Nat.le_of_not_lt hc)
    obtain ⟨rfl, rfl⟩ := List.cons.inj (h.symm.trans hencoding)
    have hcases := lead?_cases hlead
    rw [symbolAt, if_neg (by omega), hlead]
    simp only [hfits.tail_append (by omega) rest, if_pos hfits.length_eq, hvalue, Char.ofNat_toNat]

/-- A symbol is read from the bytes that stand at the front, and the others stay. -/
theorem bytes_symbolAt (byte : UInt8) (rest : List UInt8) :
    (symbolAt byte rest).bytes ++ rest.drop ((symbolAt byte rest).size - 1) = byte :: rest := by
  by_cases hbyte : byte.toNat < 0x80
  · rw [symbolAt_of_lt hbyte]
    simp only [Symbol.bytes, Symbol.size, ← String.length_utf8EncodeChar, encoding_one hbyte]
    simp
  · rw [symbolAt, if_neg hbyte]
    cases hlead : lead? byte with
    | none => rfl
    | some lead =>
      dsimp only
      split
      · rename_i hlength
        have hencoding := (Lead.fits_tail hlength).encode_codePoint hlead
        obtain ⟨after, hafter⟩ := lead.tail_isPrefix rest
        simp only [Symbol.bytes, Symbol.size, ← String.length_utf8EncodeChar, hencoding]
        rw [List.length_cons, Nat.add_sub_cancel]
        nth_rewrite 3 [← hafter]
        rw [List.drop_left, List.cons_append, hafter]
      · rfl

/-- Only a byte past the first 128 is malformed. -/
theorem eq_of_symbolAt_malformed {byte bad : UInt8} {rest : List UInt8}
    (h : symbolAt byte rest = .malformed bad) : bad = byte ∧ 0x80 ≤ byte.toNat := by
  unfold symbolAt at h
  dsimp only at h
  repeat' split at h
  all_goals simp only [reduceCtorEq, Symbol.malformed.injEq] at h
  all_goals exact ⟨h.symm, by omega⟩

end AsmLexer.Utf8

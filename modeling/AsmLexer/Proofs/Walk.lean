import AsmLexer.Proofs.Advance
import AsmLexer.Proofs.Text.Lines

/-!
# Exact places

A walk over a source reads one symbol after the other by `Utf8.first?`. A place is exact if a walk
from the beginning of the source reaches its offset, its line counts the newlines in front of it,
and its column counts the symbols of a walk from the beginning of its line. The place behind any
symbols with which a source begins is exact (`exact_afterAll`). In an encoded text its column counts
characters (`countsIn_afterAll`).
-/

set_option autoImplicit false

namespace AsmLexer

/-- A walk over a source from one offset to another, and how many symbols it reads. -/
inductive Walk (source : List UInt8) : Nat → Nat → Nat → Prop where
  | here (n : Nat) : Walk source n n 0
  | step {n m units : Nat} {s : Symbol} : Utf8.first? (source.drop n) = some s →
      Walk source (n + s.size) m units → Walk source n m (units + 1)

/-- The offset at which the line begins that an offset lies on. -/
def lineStart (source : List UInt8) (n : Nat) : Nat :=
  n - ((source.take n).reverse.takeWhile (· != 0x0A)).length

example : lineStart [0x61, 0x0A, 0x62, 0x63] 3 = 2 := by decide

/-- A place that says exactly where in a source it is. -/
structure Position.Exact (source : List UInt8) (p : Position) : Prop where
  offset_nonneg : 0 ≤ p.offset
  offset_le : p.offset ≤ source.length
  boundary : ∃ units, Walk source 0 p.offset.toNat units
  line_eq : p.line = 1 + (source.take p.offset.toNat).count 0x0A
  column_eq : ∃ units, Walk source (lineStart source p.offset.toNat) p.offset.toNat units ∧
    p.column = 1 + units

/-! ## Walks -/

/-- Walks only go forward. -/
theorem Walk.le {source : List UInt8} {n m units : Nat} (h : Walk source n m units) : n ≤ m := by
  induction h with
  | here n => exact Nat.le_refl n
  | step _ _ ih => omega

/-- There is one way to walk from an offset to another. -/
theorem Walk.units_unique {source : List UInt8} {n m units others : Nat}
    (h : Walk source n m units) (hothers : Walk source n m others) : units = others := by
  induction h generalizing others with
  | here n =>
    cases hothers with
    | here => rfl
    | @step _ _ _ s _ hmore =>
      have hle := hmore.le
      have hpos := s.size_pos
      omega
  | @step n m units s hfirst hmore ih =>
    cases hothers with
    | here =>
      have hle := hmore.le
      have hpos := s.size_pos
      omega
    | @step _ _ _ t hfirst' hmore' =>
      obtain rfl : s = t := Option.some.inj (hfirst.symm.trans hfirst')
      rw [ih hmore']

/-- An offset has at most one exact place. -/
theorem Position.Exact.eq_of_offset {source : List UInt8} {p q : Position} (hp : p.Exact source)
    (hq : q.Exact source) (h : p.offset = q.offset) : p = q := by
  have hline : p.line = q.line := by rw [hp.line_eq, hq.line_eq, h]
  have hcolumn : p.column = q.column := by
    obtain ⟨units, hwalk, hunits⟩ := hp.column_eq
    obtain ⟨others, hwalk', hothers⟩ := hq.column_eq
    rw [← h] at hwalk'
    rw [hunits, hothers, hwalk.units_unique hwalk']
  cases p
  cases q
  simp_all

/-! ## Walks over symbols -/

/-- The first symbol of some bytes is the first of all their symbols. -/
theorem first?_eq_head? (text : List UInt8) : Utf8.first? text = (Utf8.symbols text).head? := by
  cases text with
  | nil => rw [Utf8.symbols_nil]; rfl
  | cons byte rest => rw [Utf8.symbols_cons]; rfl

/-- Behind the bytes of the first symbols stand those of the others. -/
theorem drop_of_symbols {source : List UInt8} {before after : List Symbol}
    (h : Utf8.symbols source = before ++ after) :
    source.drop (before.flatMap Symbol.bytes).length = after.flatMap Symbol.bytes := by
  have hbytes := Utf8.bytes_symbols source
  rw [h, List.flatMap_append] at hbytes
  rw [← hbytes, List.drop_left]

/-- A source begins with the bytes of its first symbols. -/
theorem take_of_symbols {source : List UInt8} {before after : List Symbol}
    (h : Utf8.symbols source = before ++ after) :
    source.take (before.flatMap Symbol.bytes).length = before.flatMap Symbol.bytes := by
  have hbytes := Utf8.bytes_symbols source
  rw [h, List.flatMap_append] at hbytes
  rw [← hbytes, List.take_left]

/-- Behind the first symbols, the next one is the first of the others. -/
theorem first?_drop_of_symbols {source : List UInt8} {before after : List Symbol}
    (h : Utf8.symbols source = before ++ after) :
    Utf8.first? (source.drop (before.flatMap Symbol.bytes).length) = after.head? := by
  rw [first?_eq_head?, drop_of_symbols h, Utf8.symbols_suffix h]

/-- A walk leads over any run of the symbols, one by one. -/
theorem walk_of_symbols {source : List UInt8} {before run after : List Symbol}
    (h : Utf8.symbols source = before ++ (run ++ after)) :
    Walk source (before.flatMap Symbol.bytes).length
      ((before ++ run).flatMap Symbol.bytes).length run.length := by
  induction run generalizing before with
  | nil =>
    rw [List.append_nil]
    exact .here _
  | cons s run ih =>
    have hfirst : Utf8.first? (source.drop (before.flatMap Symbol.bytes).length) = some s :=
      first?_drop_of_symbols h
    have hmore := @ih (before ++ [s]) (by rw [h, List.append_assoc]; rfl)
    have hstart : ((before ++ [s]).flatMap Symbol.bytes).length =
        (before.flatMap Symbol.bytes).length + s.size := by
      simp [s.length_bytes]
    rw [hstart, List.append_assoc] at hmore
    exact .step hfirst hmore

/-! ## Lines -/

/-- Of all symbols only the newline is counted as one. -/
theorem count_newline_bytes {source : List UInt8} {s : Symbol} (h : s ∈ Utf8.symbols source) :
    s.bytes.count 0x0A = if s = .char '\n' then 1 else 0 := by
  split
  · rename_i hs
    subst hs
    decide
  · rename_i hs
    rw [List.count_eq_zero, Utf8.newline_mem_bytes_iff h]
    exact hs

/-- As many newline bytes are in a run of symbols as newlines. -/
theorem count_newline_flatMap {source : List UInt8} {run : List Symbol}
    (h : ∀ s ∈ run, s ∈ Utf8.symbols source) :
    (run.flatMap Symbol.bytes).count 0x0A = run.count (.char '\n') := by
  induction run with
  | nil => rfl
  | cons s run ih =>
    rw [List.forall_mem_cons] at h
    rw [List.flatMap_cons, List.count_append, List.count_cons, ih h.2, count_newline_bytes h.1,
      Nat.add_comm]
    simp only [beq_iff_eq]

/-- The column counts the symbols of the last line. -/
theorem column_of_lines {lines line : List Symbol} (hline : .char '\n' ∉ line)
    (hlines : WholeLines (.char '\n') lines) :
    (Position.origin.afterAll (lines ++ line)).column = 1 + line.length := by
  rcases hlines with rfl | ⟨init, rfl⟩
  · rw [List.nil_append, Position.column_afterAll_of_notMem _ hline]
    rfl
  · rw [List.append_assoc, List.singleton_append, Position.column_afterAll_newline _ _ hline]

/-- The line begins behind the whole lines in front of it. -/
theorem lineStart_of_symbols {source : List UInt8} {lines line after : List Symbol}
    (h : Utf8.symbols source = lines ++ line ++ after) (hline : .char '\n' ∉ line)
    (hlines : WholeLines (.char '\n') lines) :
    lineStart source ((lines ++ line).flatMap Symbol.bytes).length =
      (lines.flatMap Symbol.bytes).length := by
  have hbytes : 0x0A ∉ line.flatMap Symbol.bytes := by
    intro hmem
    obtain ⟨s, hs, hbyte⟩ := List.mem_flatMap.mp hmem
    have hread : s ∈ Utf8.symbols source := by
      rw [h]
      exact List.mem_append_left _ (List.mem_append_right _ hs)
    have hnewline := (Utf8.newline_mem_bytes_iff hread).mp hbyte
    subst hnewline
    exact hline hs
  have hkept : ∀ byte ∈ (line.flatMap Symbol.bytes).reverse, (byte != 0x0A) = true := by
    intro byte hbyte
    rw [bne_iff_ne]
    rintro rfl
    exact hbytes (List.mem_reverse.mp hbyte)
  have hstopped : ((lines.flatMap Symbol.bytes).reverse).takeWhile (· != 0x0A) = [] := by
    rcases hlines with rfl | ⟨init, rfl⟩
    · rfl
    · rw [List.flatMap_append, List.reverse_append]
      rfl
  -- from the end of `line` backwards, all is skipped up to the newline that ends `lines`
  unfold lineStart
  rw [take_of_symbols h, List.flatMap_append, List.reverse_append,
    List.takeWhile_append_of_pos hkept, hstopped, List.append_nil, List.length_reverse,
    List.length_append, Nat.add_sub_cancel]

/-! ## The place behind some symbols -/

/-- The place behind the first symbols of a source is exact. -/
theorem exact_afterAll {source : List UInt8} {before after : List Symbol}
    (h : Utf8.symbols source = before ++ after) :
    (Position.origin.afterAll before).Exact source := by
  have hoffset := Position.offset_origin_afterAll before
  have htake := take_of_symbols h
  constructor
  · omega
  · rw [hoffset, ← htake, List.length_take]
    omega
  · refine ⟨before.length, ?_⟩
    have hwalk := @walk_of_symbols source [] before after h
    rw [hoffset, Int.toNat_natCast]
    exact hwalk
  · have hread : ∀ s ∈ before, s ∈ Utf8.symbols source := by
      intro s hs
      rw [h]
      exact List.mem_append_left after hs
    rw [hoffset, Int.toNat_natCast, htake, count_newline_flatMap hread, Position.line_afterAll]
    rfl
  · obtain ⟨lines, line, rfl, hline, hlines⟩ := exists_lines (.char '\n') before
    refine ⟨line.length, ?_, column_of_lines hline hlines⟩
    rw [hoffset, Int.toNat_natCast, lineStart_of_symbols h hline hlines]
    rw [List.append_assoc] at h
    exact walk_of_symbols h

/-- A place of an encoded text: behind some whole lines and the beginning of one more, of which it
counts the characters. -/
def Position.CountsIn (cs : List Char) (p : Position) : Prop :=
  ∃ lines line rest, cs = lines ++ line ++ rest ∧ '\n' ∉ line ∧
    (lines = [] ∨ ∃ init, lines = init ++ ['\n']) ∧
    p.offset = (Utf8.encode (lines ++ line)).length ∧ p.column - 1 = line.length

/-- The place behind the first symbols of an encoded text counts its characters. -/
theorem countsIn_afterAll {cs : List Char} {before after : List Symbol}
    (h : Utf8.symbols (Utf8.encode cs) = before ++ after) :
    (Position.origin.afterAll before).CountsIn cs := by
  rw [Utf8.symbols_encode, List.map_eq_append_iff] at h
  obtain ⟨front, rest, rfl, rfl, -⟩ := h
  obtain ⟨lines, line, rfl, hline, hlines⟩ := exists_lines '\n' front
  refine ⟨lines, line, rest, rfl, hline, hlines, ?_, ?_⟩
  · rw [Position.offset_afterAll, Utf8.bytes_map_char]
    exact Int.zero_add _
  · have hline' : .char '\n' ∉ line.map Symbol.char := by simpa using hline
    have hlines' : WholeLines (.char '\n') (lines.map Symbol.char) := by
      rcases hlines with rfl | ⟨init, rfl⟩
      · exact .inl rfl
      · exact .inr ⟨init.map .char, by rw [List.map_append]; rfl⟩
    rw [List.map_append, column_of_lines hline' hlines', List.length_map]
    omega

end AsmLexer

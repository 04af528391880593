/-!
# Reading bytes as UTF-8

Source text is any sequence of bytes. It is read as symbols: a symbol is a character in its
complete, well-formed encoding, or else a single byte at which no such encoding begins.
`Utf8.first?` reads one symbol and `Utf8.symbols` all of them, so nothing of the source is lost.

For showing a text to people there is a second reading, `Utf8.decodeLossy`, in which each longest
beginning of an ill-formed sequence becomes one replacement character.

Both readings rest on one table, `Utf8.lead?`: a first byte fixes the number of bytes that follow
it and the range of the second one, which is what keeps out overlong forms, surrogates and code
points past the last.
-/

set_option autoImplicit false

namespace AsmLexer

/-- One step of a source: a well-formed character, or a byte that begins none. -/
inductive Symbol where
  | char (c : Char)
  | malformed (byte : UInt8)
deriving DecidableEq

/-- The bytes that a symbol is read from. -/
def Symbol.bytes : Symbol → List UInt8
  | .char c => String.utf8EncodeChar c
  | .malformed byte => [byte]

/-- The number of bytes that a symbol is read from. -/
def Symbol.size : Symbol → Nat
  | .char c => c.utf8Size
  | .malformed _ => 1

namespace Utf8

/-- What the first byte of a sequence of several bytes announces. -/
structure Lead where
  /-- The high bits of the code point. -/
  payload : Nat
  /-- How many bytes follow. -/
  trailing : Nat
  /-- The least value of the second byte. -/
  low : Nat
  /-- The greatest value of the second byte. -/
  high : Nat

/-- The announcement of a first byte, if it begins a sequence of several bytes. -/
def lead? (byte : UInt8) : Option Lead :=
  let n := byte.toNat
  if n < 0xC2 then none
  else if n < 0xE0 then some ⟨n - 0xC0, 1, 0x80, 0xBF⟩
  else if n = 0xE0 then some ⟨0, 2, 0xA0, 0xBF⟩
  else if n = 0xED then some ⟨0xD, 2, 0x80, 0x9F⟩
  else if n < 0xF0 then some ⟨n - 0xE0, 2, 0x80, 0xBF⟩
  else if n = 0xF0 then some ⟨0, 3, 0x90, 0xBF⟩
  else if n < 0xF4 then some ⟨n - 0xF0, 3, 0x80, 0xBF⟩
  else if n = 0xF4 then some ⟨4, 3, 0x80, 0x8F⟩
  else none

/-- Whether a byte may stand in third or fourth place. -/
def isContinuation (byte : UInt8) : Bool :=
  0x80 ≤ byte.toNat && byte.toNat ≤ 0xBF

/-- The bytes that continue the announced sequence, as far as they are there and fit. -/
def Lead.tail (lead : Lead) : List UInt8 → List UInt8
  | [] => []
  | byte :: rest =>
    if lead.low ≤ byte.toNat ∧ byte.toNat ≤ lead.high then
      byte :: (rest.take (lead.trailing - 1)).takeWhile isContinuation
    else []

/-- The code point of a sequence: every byte after the first adds six bits. -/
def Lead.codePoint (lead : Lead) (tail : List UInt8) : Nat :=
  tail.foldl (fun value byte => value * 64 + byte.toNat % 64) lead.payload

/-- The symbol that begins with this byte, before these further bytes. -/
def symbolAt (byte : UInt8) (rest : List UInt8) : Symbol :=
  if byte.toNat < 0x80 then .char (Char.ofNat byte.toNat)
  else match lead? byte with
  | none => .malformed byte
  | some lead =>
    let tail := lead.tail rest
    if tail.length = lead.trailing then .char (Char.ofNat (lead.codePoint tail))
    else .malformed byte

/-- The first symbol, unless there are no bytes. -/
def first? : List UInt8 → Option Symbol
  | [] => none
  | byte :: rest => some (symbolAt byte rest)

/-- All symbols of a source, in order. -/
def symbols : List UInt8 → List Symbol
  | [] => []
  | byte :: rest =>
    let symbol := symbolAt byte rest
    symbol :: symbols (rest.drop (symbol.size - 1))
termination_by bytes => bytes.length
decreasing_by
  simp only [List.length_drop, List.length_cons]
  omega

/-- The character that stands for bytes that are not well-formed. -/
def replacement : Char := '\uFFFD'

/-- How many bytes the longest well-formed beginning of a sequence takes that starts with this
byte. -/
def fitting (byte : UInt8) (rest : List UInt8) : Nat :=
  match lead? byte with
  | none => 1
  | some lead => 1 + (lead.tail rest).length

/-- The characters of a source, with one replacement character for each longest beginning of an
ill-formed sequence. -/
def decodeLossy : List UInt8 → List Char
  | [] => []
  | byte :: rest =>
    let c := match symbolAt byte rest with
      | .char c => c
      | .malformed _ => replacement
    c :: decodeLossy (rest.drop (fitting byte rest - 1))
termination_by bytes => bytes.length
decreasing_by
  simp only [List.length_drop, List.length_cons]
  omega

/-- The characters of a source, unless some byte of it is malformed. -/
def decode? (bytes : List UInt8) : Option (List Char) :=
  (symbols bytes).mapM fun
    | .char c => some c
    | .malformed _ => none

/-- The bytes of a text. -/
def encode (s : List Char) : List UInt8 :=
  s.flatMap String.utf8EncodeChar

end Utf8

end AsmLexer

import AsmLexer.Proofs.Message
import AsmLexer.Proofs.Text.Quoted

/-!
# Messages tell faults apart

A message says what its fault is, down to the character, the base, the value or the byte, so the
fault can be read back from it (`Fault.ofMessage?_message`). Three faults are about an illegal
symbol, and their messages begin alike: the character is quoted, so it is known where it ends, and
the rest tells where the symbol stood.
-/

set_option autoImplicit false

namespace AsmLexer

/-- The characters of three texts in a row. -/
theorem toList_append₃ (x y z : String) :
    (x ++ y ++ z).toList = x.toList ++ (y.toList ++ z.toList) := by
  simp only [String.toList_append, List.append_assoc]

/-- The characters of a single one in quotes. -/
theorem toList_quoted_singleton (c : Char) : (quoted (String.singleton c)).toList = quote [c] := by
  rw [quoted, String.toList_ofList, String.toList_singleton]

namespace Fault

/-- The fault of an illegal symbol, from what is said behind the quoted symbol. -/
def ofEnding (c : Char) : List Char → Fault
  | [] => illegalSymbol c
  | ' ' :: 'i' :: 'n' :: ' ' :: 'b' :: 'a' :: 's' :: 'e' :: ' ' :: rest =>
    illegalDigit c (Nat.ofDigitChars 10 (rest.takeWhile Char.isDigit) 0)
  | _ => illegalAfterZero c

/-- The fault that a message is about. -/
def ofMessage? (message : List Char) : Option Fault :=
  match message with
  | 'i' :: 'l' :: 'l' :: _ =>
    (readEscape (message.drop ("illegal symbol ".length + 1))).map fun read =>
      ofEnding read.1 (read.2.drop 1)
  | 'm' :: _ =>
    let quotedValue := message.drop "malformed immediate value \"".length
    some (malformedImmediate (String.ofList quotedValue.dropLast))
  | 'i' :: 'n' :: 'v' :: _ =>
    let digits := message.drop "invalid UTF-8 byte \\x".length
    some (invalidByte (UInt8.ofNat (Toml.digitsValue 16 digits)))
  | _ => none

/-- A message about an illegal symbol says which one it is. -/
theorem ofMessage?_illegal (c : Char) (ending : List Char) :
    ofMessage? ("illegal symbol ".toList ++ (quote [c] ++ ending)) = some (ofEnding c ending) := by
  have hquote : quote [c] ++ ending = quoteDelimiter [c] ::
      (escapeChar (quoteDelimiter [c]) c ++ quoteDelimiter [c] :: ending) := by
    simp [quote]
  have hread := readEscape_escapeChar (quoteDelimiter_cases [c]) c (quoteDelimiter [c] :: ending)
  rw [hquote]
  show (readEscape _).map _ = _
  rw [show List.drop _ _ =
    escapeChar (quoteDelimiter [c]) c ++ quoteDelimiter [c] :: ending from rfl, hread]
  rfl

/-- The ending of a message about a digit says the base. -/
theorem ofEnding_digit (c : Char) (base : Nat) :
    ofEnding c (" in base ".toList ++ ((toString base).toList ++ " immediate value".toList)) =
      illegalDigit c base := by
  have hdigits : ((toString base).toList ++ " immediate value".toList).takeWhile Char.isDigit =
      (toString base).toList := by
    rw [List.takeWhile_append_of_pos fun d hd => mem_toString_nat hd]
    exact List.append_nil _
  show illegalDigit c (Nat.ofDigitChars 10 (((toString base).toList ++
    " immediate value".toList).takeWhile Char.isDigit) 0) = _
  rw [hdigits, Nat.toString_eq_ofList_toDigits, String.toList_ofList, Nat.ofDigitChars_ten_toDigits]

/-- The message about a digit in parts: the symbol in quotes, and the base. -/
theorem toList_message_digit (c : Char) (base : Nat) :
    (illegalDigit c base).message.toList = "illegal symbol ".toList ++ (quote [c] ++
      (" in base ".toList ++ ((toString base).toList ++ " immediate value".toList))) := by
  have happend (front symbol x y z : String) : (front ++ symbol ++ x ++ y ++ z).toList =
      front.toList ++ (symbol.toList ++ (x.toList ++ (y.toList ++ z.toList))) := by
    simp only [String.toList_append, List.append_assoc]
  rw [← toList_quoted_singleton]
  exact happend _ _ _ _ _

/-- A fault is read back from its message. -/
theorem ofMessage?_message (fault : Fault) : ofMessage? fault.message.toList = some fault := by
  cases fault with
  | illegalSymbol c =>
    have hillegal := ofMessage?_illegal c []
    rw [List.append_nil, ← toList_quoted_singleton, ← String.toList_append] at hillegal
    exact hillegal
  | illegalAfterZero c =>
    have hillegal := ofMessage?_illegal c " in immediate value".toList
    rw [← toList_quoted_singleton, ← toList_append₃] at hillegal
    exact hillegal
  | illegalDigit c base => rw [toList_message_digit, ofMessage?_illegal, ofEnding_digit]
  | malformedImmediate literal =>
    have hliteral : (literal.toList ++ ['"']).dropLast = literal.toList := List.dropLast_concat
    have hmessage : (malformedImmediate literal).message.toList =
        "malformed immediate value \"".toList ++ (literal.toList ++ "\"".toList) :=
      toList_append₃ _ _ _
    rw [hmessage]
    show some (malformedImmediate (String.ofList (literal.toList ++ ['"']).dropLast)) = _
    rw [hliteral, String.ofList_toList]
  | invalidByte byte =>
    have hvalue := digitsValue_digits .upper (show byte.toNat < Nat.pow 16 2 from byte.toNat_lt)
    have hmessage : (invalidByte byte).message.toList =
        "invalid UTF-8 byte \\x".toList ++ HexCase.upper.digits 2 byte.toNat :=
      String.toList_append.trans (congrArg _ String.toList_ofList)
    rw [hmessage]
    show some (invalidByte (UInt8.ofNat (Toml.digitsValue 16
      (HexCase.upper.digits 2 byte.toNat)))) = _
    rw [hvalue, UInt8.ofNat_toNat]

/-- Two faults with one message are the same. -/
theorem message_injective : Function.Injective message := by
  intro fault other h
  have hread := other.ofMessage?_message
  rw [← h, fault.ofMessage?_message] at hread
  exact Option.some.inj hread

end Fault

end AsmLexer

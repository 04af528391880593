import AsmLexer.Number.Integer
import AsmLexer.Toml.Fault
import AsmLexer.Toml.Quotation
import AsmLexer.Toml.Value

/-!
# Numbers, dates and times in a configuration document

Each reader takes the longest beginning of its input that has its form, and leaves the rest to
whoever comes next. A decimal whole number has at most 4300 digits; a longer one is a fault of its
own. Numbers in other bases and real numbers may be of any length.
-/

set_option autoImplicit false

namespace AsmLexer.Toml

/-- The digits that go on a run, with at most one underscore in front of each; the underscores are
left out. -/
def moreDigits (isDigit : Char → Bool) : List Char → List Char × List Char
  | [] => ([], [])
  | '_' :: c :: rest =>
    if isDigit c then
      let (digits, rest) := moreDigits isDigit rest
      (c :: digits, rest)
    else ([], '_' :: c :: rest)
  | c :: rest =>
    if isDigit c then
      let (digits, rest) := moreDigits isDigit rest
      (c :: digits, rest)
    else ([], c :: rest)

/-- A run of digits, which begins with one. -/
def digitRun? (isDigit : Char → Bool) : List Char → Option (List Char × List Char)
  | [] => none
  | c :: rest =>
    if isDigit c then
      let (digits, rest) := moreDigits isDigit rest
      some (c :: digits, rest)
    else none

/-- The number that digits of a base stand for. -/
def digitsValue (base : Nat) (digits : List Char) : Nat :=
  digits.foldl (fun n c => n * base + (hexValue? c).getD 0) 0

/-- A sign in front of a number; without one the number is not negative. -/
def sign : List Char → Bool × List Char
  | '-' :: rest => (true, rest)
  | '+' :: rest => (false, rest)
  | input => (false, input)

/-- The digits of a whole number behind the mark of its base. -/
def markedDigits? (base : Nat) (input : List Char) : Option (Int × List Char) :=
  (digitRun? (fun c => (hexValue? c).any (· < base)) input).map fun (digits, rest) =>
    ((digitsValue base digits : Nat), rest)

/-- A whole number in base sixteen, two or eight, from its leading zero on. -/
def markedInteger? : List Char → Option (Int × List Char)
  | '0' :: 'x' :: rest => markedDigits? 16 rest
  | '0' :: 'b' :: rest => markedDigits? 2 rest
  | '0' :: 'o' :: rest => markedDigits? 8 rest
  | _ => none

/-- The digits of a decimal whole number: a single zero, or digits that begin with another one. -/
def wholeDigits? : List Char → Option (List Char × List Char)
  | '0' :: rest => some (['0'], rest)
  | input => digitRun? Char.isDigit input

/-- The digits of a fraction, from its point on, if there is one. -/
def fraction (input : List Char) : Option (List Char) × List Char :=
  match input with
  | '.' :: rest =>
    match digitRun? Char.isDigit rest with
    | some (digits, rest) => (some digits, rest)
    | none => (none, input)
  | _ => (none, input)

/-- An exponent, from its letter on, if there is one. -/
def exponent (input : List Char) : Option Int × List Char :=
  match input with
  | c :: rest =>
    if c = 'e' ∨ c = 'E' then
      let (negative, rest) := sign rest
      match digitRun? Char.isDigit rest with
      | some (digits, rest) =>
        let n : Int := digitsValue 10 digits
        (some (if negative then -n else n), rest)
      | none => (none, input)
    else (none, input)
  | [] => (none, input)

/-- A whole number from its decimal digits. -/
def wholeNumber (negative : Bool) (digits : List Char) : Except Fault Int :=
  if longestNumber < digits.length then .error (.longNumber digits.length)
  else
    let n : Int := digitsValue 10 digits
    .ok (if negative then -n else n)

/-- A decimal number: real if it has a fraction or an exponent, otherwise whole. -/
def decimalNumber (input : List Char) : Except Fault (Value × List Char) := do
  let (negative, rest) := sign input
  let (whole, rest) ← orMalformed (wholeDigits? rest)
  let (fraction, rest) := fraction rest
  let (exponent, rest) := exponent rest
  match fraction, exponent with
  | none, none => return (.integer (← wholeNumber negative whole), rest)
  | _, _ =>
    let fraction := fraction.getD []
    let power := exponent.getD 0 - fraction.length
    return (.real (.ofDecimal negative (digitsValue 10 (whole ++ fraction)) power), rest)

/-- A real number that is no decimal: an infinite one, or none at all. -/
def specialReal? (input : List Char) : Option (Value × List Char) :=
  let (negative, rest) := sign input
  match rest with
  | 'i' :: 'n' :: 'f' :: rest => some (.real (.infinite negative), rest)
  | 'n' :: 'a' :: 'n' :: rest => some (.real .nan, rest)
  | _ => none

/-- Exactly `width` decimal digits, as a number from `low` to `high`. -/
def fixedDigits? (width low high : Nat) (input : List Char) : Option (Nat × List Char) :=
  let digits := input.take width
  let n := digitsValue 10 digits
  if digits.length = width ∧ digits.all Char.isDigit ∧ low ≤ n ∧ n ≤ high then
    some (n, input.drop width)
  else none

/-- The given character. -/
def mark? (c : Char) : List Char → Option (Unit × List Char)
  | c' :: rest => if c' = c then some ((), rest) else none
  | [] => none

/-- Year, month and day; whether the calendar has the day is left open. -/
def date? (input : List Char) : Option (Date × List Char) := do
  let (year, rest) ← fixedDigits? 4 0 9999 input
  let (_, rest) ← mark? '-' rest
  let (month, rest) ← fixedDigits? 2 1 12 rest
  let (_, rest) ← mark? '-' rest
  let (day, rest) ← fixedDigits? 2 1 31 rest
  return (⟨year, month, day⟩, rest)

/-- The microseconds of a fraction of a second; further digits are dropped. -/
def microseconds (input : List Char) : Nat × List Char :=
  match input with
  | '.' :: rest =>
    match rest.takeWhile Char.isDigit with
    | [] => (0, input)
    | digits =>
      let six := digits.take 6
      (digitsValue 10 (six ++ List.replicate (6 - six.length) '0'), rest.drop digits.length)
  | _ => (0, input)

/-- Hour, minute and second. -/
def clock? (input : List Char) : Option (Clock × List Char) := do
  let (hour, rest) ← fixedDigits? 2 0 23 input
  let (_, rest) ← mark? ':' rest
  let (minute, rest) ← fixedDigits? 2 0 59 rest
  let (_, rest) ← mark? ':' rest
  let (second, rest) ← fixedDigits? 2 0 59 rest
  let (microsecond, rest) := microseconds rest
  return (⟨hour, minute, second, microsecond⟩, rest)

/-- The distance from universal time in minutes. -/
def ahead? : List Char → Option (Int × List Char)
  | c :: rest =>
    if c = 'Z' ∨ c = 'z' then some (0, rest)
    else if c = '+' ∨ c = '-' then do
      let (hours, rest) ← fixedDigits? 2 0 23 rest
      let (_, rest) ← mark? ':' rest
      let (minutes, rest) ← fixedDigits? 2 0 59 rest
      let total : Int := hours * 60 + minutes
      return (if c = '-' then -total else total, rest)
    else none
  | [] => none

/-- The time after a date, with the character that parts them. -/
def clockAfterDate? : List Char → Option (Clock × List Char)
  | c :: rest => if c = 'T' ∨ c = 't' ∨ c = ' ' then clock? rest else none
  | [] => none

/-- A date, a time, or both. -/
def moment? (input : List Char) : Option (Moment × List Char) :=
  match date? input with
  | some (date, rest) =>
    match clockAfterDate? rest with
    | some (clock, rest) =>
      match ahead? rest with
      | some (minutes, rest) => some (.both date clock (some minutes), rest)
      | none => some (.both date clock none, rest)
    | none => some (.date date, rest)
  | none => (clock? input).map fun (clock, rest) => (.time clock, rest)

/-- Whether the calendar has the day of a moment. -/
def Moment.isValid : Moment → Bool
  | .date d => d.isValid
  | .time _ => true
  | .both d _ _ => d.isValid

/-- A number: in a marked base, infinite or none at all, or decimal. -/
def number (input : List Char) : Except Fault (Value × List Char) :=
  match markedInteger? input, specialReal? input with
  | some (n, rest), _ => .ok (.integer n, rest)
  | none, some (x, rest) => .ok (x, rest)
  | none, none => decimalNumber input

/-- A value that is not text and holds no others. -/
def scalar (input : List Char) : Except Fault (Value × List Char) :=
  match input with
  | 't' :: 'r' :: 'u' :: 'e' :: rest => .ok (.truth true, rest)
  | 'f' :: 'a' :: 'l' :: 's' :: 'e' :: rest => .ok (.truth false, rest)
  | _ =>
    match moment? input with
    | some (m, rest) => if m.isValid then .ok (.moment m, rest) else .error .malformed
    | none => number input

end AsmLexer.Toml

/-!
# Dates and times

The dates and times that a configuration document can hold, and how they are shown. By itself a
moment is shown with blanks and colons; inside a list it is shown as the expression that builds it.
-/

set_option autoImplicit false

namespace AsmLexer.Toml

/-- A day of the calendar. -/
structure Date where
  year : Nat
  month : Nat
  day : Nat
deriving DecidableEq

/-- A time of day. -/
structure Clock where
  hour : Nat
  minute : Nat
  second : Nat
  microsecond : Nat
deriving DecidableEq

/-- A date, a time, or both; a date with a time may say how many minutes it is ahead of universal
time. -/
inductive Moment where
  | date (date : Date)
  | time (time : Clock)
  | both (date : Date) (time : Clock) (ahead : Option Int)
deriving DecidableEq

/-- How many days a month has, by the present calendar in all years. -/
def daysInMonth (year month : Nat) : Nat :=
  if month = 2 then
    if year % 4 = 0 ∧ (year % 100 ≠ 0 ∨ year % 400 = 0) then 29 else 28
  else if month = 4 ∨ month = 6 ∨ month = 9 ∨ month = 11 then 30
  else 31

/-- Whether a date is in the calendar, which begins with the year one. -/
def Date.isValid (d : Date) : Bool :=
  1 ≤ d.year && 1 ≤ d.month && d.month ≤ 12 && 1 ≤ d.day && d.day ≤ daysInMonth d.year d.month

/-- A number in at least `width` digits. -/
def padded (width n : Nat) : String :=
  let digits := toString n
  String.ofList (List.replicate (width - digits.length) '0') ++ digits

/-- Year, month and day. -/
def Date.text (d : Date) : String :=
  padded 4 d.year ++ "-" ++ padded 2 d.month ++ "-" ++ padded 2 d.day

/-- Hour, minute and second, and the microsecond unless it is zero. -/
def Clock.text (t : Clock) : String :=
  padded 2 t.hour ++ ":" ++ padded 2 t.minute ++ ":" ++ padded 2 t.second ++
    if t.microsecond = 0 then "" else "." ++ padded 6 t.microsecond

/-- The distance from universal time in hours and minutes. -/
def aheadText (minutes : Int) : String :=
  (if minutes < 0 then "-" else "+") ++
    padded 2 (minutes.natAbs / 60) ++ ":" ++ padded 2 (minutes.natAbs % 60)

/-- A moment by itself. -/
def Moment.text : Moment → String
  | .date d => d.text
  | .time t => t.text
  | .both d t ahead => d.text ++ " " ++ t.text ++ ((ahead.map aheadText).getD "")

/-- The parts of a date in an expression. -/
def Date.parts (d : Date) : List String :=
  [toString d.year, toString d.month, toString d.day]

/-- The parts of a time in an expression: a second and a microsecond of zero are left out at the
end. -/
def Clock.parts (t : Clock) : List String :=
  [toString t.hour, toString t.minute] ++
    (if t.second = 0 ∧ t.microsecond = 0 then [] else [toString t.second]) ++
    (if t.microsecond = 0 then [] else [toString t.microsecond])

/-- The expression for a distance from universal time: whole days are taken out of a negative one,
so that the seconds are not negative. -/
def aheadExpression (minutes : Int) : String :=
  if minutes = 0 then "datetime.timezone.utc"
  else
    let days := if minutes < 0 then "days=-1, " else ""
    let seconds := if minutes < 0 then 86400 + 60 * minutes else 60 * minutes
    "datetime.timezone(datetime.timedelta(" ++ days ++ "seconds=" ++ toString seconds ++ "))"

/-- The expression that builds a moment. -/
def Moment.expression : Moment → String
  | .date d => "datetime.date(" ++ ", ".intercalate d.parts ++ ")"
  | .time t => "datetime.time(" ++ ", ".intercalate t.parts ++ ")"
  | .both d t ahead =>
    "datetime.datetime(" ++ ", ".intercalate (d.parts ++ t.parts ++
      (ahead.map fun minutes => "tzinfo=" ++ aheadExpression minutes).toList) ++ ")"

end AsmLexer.Toml

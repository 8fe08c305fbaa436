import MqttBroker.Toml.Lexeme

/-!
Numbers, dates and times.
-/
namespace MqttBroker.Toml
open Number

/-- The digits of a number, where single underscores between digits are left out. -/
def digitRun (isDigit : Char → Bool) : Text → Text × Text
  | c :: '_' :: d :: rest =>
    if isDigit c then
      let (digits, rest) :=
        if isDigit d then digitRun isDigit (d :: rest) else ([], '_' :: d :: rest)
      (c :: digits, rest)
    else ([], c :: '_' :: d :: rest)
  | c :: rest =>
    if isDigit c then
      let (digits, rest) := digitRun isDigit rest
      (c :: digits, rest)
    else ([], c :: rest)
  | [] => ([], [])

/-- A decimal without leading zeros. -/
def wholeDigits : Text → Text × Text
  | '0' :: rest => (['0'], rest)
  | text => digitRun isDigit text

def fixedDigits? (count : Nat) (text : Text) : Option (Nat × Text) :=
  let digits := text.take count
  if digits.length = count ∧ digits.all isDigit then some (decimalValue digits, text.drop count)
  else none

/-- A number with at least two digits. -/
def twoDigits (n : Nat) : String := if n < 10 then "0" ++ toString n else toString n

def isLeapYear (year : Nat) : Bool := year % 4 == 0 && (year % 100 != 0 || year % 400 == 0)

def daysInMonth (year month : Nat) : Nat :=
  if month = 2 then if isLeapYear year then 29 else 28
  else if month ∈ [4, 6, 9, 11] then 30
  else 31

/-- A full date.  Nothing is read unless four digits and a hyphen begin it. -/
def date? (text : Text) : Option (Option (String × Text)) := do
  match fixedDigits? 4 text with
  | some (year, '-' :: rest) =>
    let (month, rest) ← fixedDigits? 2 rest
    let '-' :: rest := rest | none
    let (day, rest) ← fixedDigits? 2 rest
    if 1 ≤ month ∧ month ≤ 12 ∧ 1 ≤ day ∧ day ≤ daysInMonth year month then
      some (some (String.ofList (text.take 10), rest))
    else none
  | _ => some none

/-- The fraction of a second: nine digits count, and zeros at their end are left out. -/
def secondFraction (text : Text) : String × Text :=
  match text with
  | '.' :: rest =>
    let digits := rest.takeWhile isDigit
    if digits.isEmpty then ("", text)
    else
      let kept := ((digits.take 9).reverse.dropWhile (· == '0')).reverse
      (if kept.isEmpty then "" else String.ofList ('.' :: kept), rest.dropWhile isDigit)
  | _ => ("", text)

/-- A time of day.  Nothing is read unless two digits and a colon begin it. -/
def time? (text : Text) : Option (Option (String × Text)) := do
  match fixedDigits? 2 text with
  | some (hour, ':' :: rest) =>
    let (minute, rest) ← fixedDigits? 2 rest
    let ':' :: rest := rest | none
    let (second, rest) ← fixedDigits? 2 rest
    if hour ≤ 23 ∧ minute ≤ 59 ∧ second ≤ 60 then
      let (fraction, rest) := secondFraction rest
      some (some (String.ofList (text.take 8) ++ fraction, rest))
    else none
  | _ => some none

/-- The distance from universal time; minus zero is written with a plus sign. -/
def zone? (text : Text) : Option (String × Text) :=
  let distance (sign : String) (rest : Text) : Option (String × Text) := do
    let (hour, rest) ← fixedDigits? 2 rest
    let ':' :: rest := rest | none
    let (minute, rest) ← fixedDigits? 2 rest
    if hour ≤ 23 ∧ minute ≤ 59 then
      let sign := if hour = 0 ∧ minute = 0 then "+" else sign
      some (sign ++ twoDigits hour ++ ":" ++ twoDigits minute, rest)
    else none
  match text with
  | 'Z' :: rest | 'z' :: rest => some ("Z", rest)
  | '+' :: rest => distance "+" rest
  | '-' :: rest => distance "-" rest
  | _ => some ("", text)

/-- A date, a time, or a date with a time and perhaps a zone, in normal form. -/
def datetime? (text : Text) : Option (Option (String × Text)) := do
  match ← date? text with
  | some (date, rest) =>
    let separated := match rest with
      | 'T' :: after | 't' :: after | ' ' :: after => after
      | _ => []
    match ← time? separated with
    | some (time, rest) =>
      let (zone, rest) ← zone? rest
      some (some (date ++ "T" ++ time ++ zone, rest))
    | none => some (some (date, rest))
  | none => time? text

/-- The exponent of a float, as it is written. -/
def exponentPart? (text : Text) : Option (Text × Text) :=
  match text with
  | 'e' :: rest | 'E' :: rest =>
    let (sign, rest) := match rest with
      | '+' :: rest => ([], rest)
      | '-' :: rest => (['-'], rest)
      | rest => ([], rest)
    let (digits, rest) := digitRun isDigit rest
    if digits.isEmpty then none else some ('e' :: sign ++ digits, rest)
  | _ => some ([], text)

/-- The fraction of a float, as it is written. -/
def fractionPart? (text : Text) : Option (Text × Text) :=
  match text with
  | '.' :: rest =>
    let (digits, rest) := digitRun isDigit rest
    if digits.isEmpty then none else some ('.' :: digits, rest)
  | _ => some ([], text)

/-- An infinity or what is no number. -/
def specialFloat? (negative : Bool) : Text → Option (Value × Text)
  | 'i' :: 'n' :: 'f' :: rest => some (.float (.infinity negative), rest)
  | 'n' :: 'a' :: 'n' :: rest => some (.float .nan, rest)
  | _ => none

/-- An integer in the given base, in the range of 64 bits. -/
def basedInteger? (base : Nat) (text : Text) : Option (Value × Text) := do
  let isBaseDigit (c : Char) := (hexDigit? c).any (· < base)
  let (digits, rest) := digitRun isBaseDigit text
  let n : Int := digitsValue base (digits.filterMap hexDigit?)
  if !digits.isEmpty && fitsInt64 n then some (.integer n, rest) else none

/-- A decimal integer or a float.  A float too large above is refused. -/
def decimalNumber? (text : Text) : Option (Value × Text) := do
  let (negative, unsigned) := splitSign text
  let (whole, rest) := wholeDigits unsigned
  if whole.isEmpty then specialFloat? negative unsigned
  else
    let (fraction, rest) ← fractionPart? rest
    let (exponent, rest) ← exponentPart? rest
    if fraction.isEmpty && exponent.isEmpty then
      let n : Int := if negative then -(decimalValue whole : Int) else decimalValue whole
      if fitsInt64 n then some (.integer n, rest) else none
    else
      let x ← decimal? negative (whole ++ fraction ++ exponent)
      if x = .infinity false then none else some (.float x, rest)

/-- A number or a date.  Bases other than ten have no sign. -/
def number? (text : Text) : Option (Value × Text) := do
  match ← datetime? text with
  | some (date, rest) => some (.datetime date, rest)
  | none =>
    match text with
    | '0' :: 'x' :: rest => basedInteger? 16 rest
    | '0' :: 'o' :: rest => basedInteger? 8 rest
    | '0' :: 'b' :: rest => basedInteger? 2 rest
    | _ => decimalNumber? text

/-- A value without parts, by its first character. -/
def scalarValue : Reader Value := fun text =>
  match text with
  | '"' :: _ | '\'' :: _ => (stringValue text).map fun (string, rest) => (.string string, rest)
  | 't' :: 'r' :: 'u' :: 'e' :: rest => some (.boolean true, rest)
  | 'f' :: 'a' :: 'l' :: 's' :: 'e' :: rest => some (.boolean false, rest)
  | 'i' :: _ | 'n' :: _ => specialFloat? false text
  | _ => number? text

end MqttBroker.Toml

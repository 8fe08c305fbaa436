import MqttBroker.Number.Binary64

/-!
Numbers written as whole texts: integers of 64 bits and decimal fractions.
-/
namespace MqttBroker.Number

def isDigit (c : Char) : Bool := '0' ≤ c && c ≤ '9'

def digitsValue (base : Nat) (digits : List Nat) : Nat := digits.foldl (fun n d => base * n + d) 0

def decimalValue (digits : List Char) : Nat :=
  digitsValue 10 (digits.map fun c => c.toNat - '0'.toNat)

/-- A sign and what follows it; without a sign the number is not negative. -/
def splitSign : List Char → Bool × List Char
  | '+' :: rest => (false, rest)
  | '-' :: rest => (true, rest)
  | text => (false, text)

/-- Digits with a plus sign at most. -/
def natural? (text : List Char) : Option Nat :=
  let digits := match text with
    | '+' :: rest => rest
    | _ => text
  if digits.isEmpty || !digits.all isDigit then none else some (decimalValue digits)

/-- Whether an integer has a place in 64 bits. -/
def fitsInt64 (n : Int) : Bool := Int64.minValue.toInt ≤ n && n ≤ Int64.maxValue.toInt

/-- Digits with a sign at most, in the range of 64 bits. -/
def int64? (text : List Char) : Option Int :=
  let (negative, digits) := splitSign text
  if digits.isEmpty || !digits.all isDigit then none
  else
    let n : Int := if negative then -(decimalValue digits : Int) else decimalValue digits
    if fitsInt64 n then some n else none

/-- The exponent after the letter `e`, if there is one; the text ends with it. -/
def exponent? : List Char → Option Int
  | [] => some 0
  | c :: rest =>
    if c == 'e' || c == 'E' then
      let (negative, digits) := splitSign rest
      if digits.isEmpty || !digits.all isDigit then none
      else some (if negative then -(decimalValue digits : Int) else decimalValue digits)
    else none

/-- A decimal with digits before or after its point, and an exponent at most. -/
def decimal? (negative : Bool) (text : List Char) : Option Binary64 := do
  let whole := text.takeWhile isDigit
  let (fraction, rest) := match text.dropWhile isDigit with
    | '.' :: rest => (rest.takeWhile isDigit, rest.dropWhile isDigit)
    | rest => ([], rest)
  if whole.isEmpty && fraction.isEmpty then none
  else
    let exponent ← exponent? rest
    some (.ofDecimal negative (decimalValue (whole ++ fraction)) (exponent - fraction.length))

/-- A decimal, an infinity or what is no number, with a sign at most.  Letters may be of either
case. -/
def float? (text : List Char) : Option Binary64 :=
  let (negative, rest) := splitSign text
  let word := String.ofList (rest.map Char.toLower)
  if word = "nan" then some .nan
  else if word = "inf" ∨ word = "infinity" then some (.infinity negative)
  else decimal? negative rest

end MqttBroker.Number

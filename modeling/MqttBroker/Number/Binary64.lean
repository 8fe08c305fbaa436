/-!
Binary floating-point numbers of 64 bits as exact values: rounding to them from a decimal, from
them to a natural number, and their shortest decimal digits.
-/
namespace MqttBroker.Number

/-- The number `±mantissa * 2 ^ exponent`, where it is finite. -/
inductive Binary64 where
  | nan
  | infinity (negative : Bool)
  | finite (negative : Bool) (mantissa : Nat) (exponent : Int)
  deriving DecidableEq, Repr

/-- A fraction of natural numbers. -/
structure Ratio where
  num : Nat
  den : Nat
  deriving Repr

namespace Ratio

/-- Multiply by a power of a base, of either sign. -/
def scale (r : Ratio) (base : Nat) : Int → Ratio
  | .ofNat n => ⟨r.num * base.pow n, r.den⟩
  | .negSucc n => ⟨r.num, r.den * base.pow (n + 1)⟩

def floor (r : Ratio) : Nat := r.num / r.den

/-- The nearest natural number; a half goes to the even neighbour. -/
def roundEven (r : Ratio) : Nat :=
  let whole := r.num / r.den
  let rest := 2 * (r.num % r.den)
  if rest < r.den ∨ (rest = r.den ∧ whole % 2 = 0) then whole else whole + 1

/-- The nearest natural number; a half goes up. -/
def roundUp (r : Ratio) : Nat := (2 * r.num + r.den) / (2 * r.den)

end Ratio

namespace Binary64

/-- The least exponent, that of the subnormal numbers. -/
def minExponent : Int := -1074

/-- Round a positive fraction to 53 bits, and to infinity what has no room. -/
def ofRatio (negative : Bool) (r : Ratio) : Binary64 :=
  let guess : Int := (r.num.log2 : Int) - r.den.log2 - 53
  let exponent := if 1 <<< 53 ≤ (r.scale 2 (-guess)).floor then guess + 1 else guess
  let exponent := max exponent minExponent
  let mantissa := (r.scale 2 (-exponent)).roundEven
  if 971 < exponent ∨ (exponent = 971 ∧ mantissa = 1 <<< 53) then infinity negative
  else if mantissa = 1 <<< 53 then finite negative (1 <<< 52) (exponent + 1)
  else finite negative mantissa exponent

/-- The nearest number to `coefficient * 10 ^ exponent`.  Decimals far out of range are not
computed with. -/
def ofDecimal (negative : Bool) (coefficient : Nat) (exponent : Int) : Binary64 :=
  let magnitude : Int := (Nat.toDigits 10 coefficient).length + exponent
  if coefficient = 0 ∨ magnitude < -400 then finite negative 0 0
  else if 400 < magnitude then infinity negative
  else ofRatio negative (Ratio.scale ⟨coefficient, 1⟩ 10 exponent)

def isZero : Binary64 → Bool
  | finite _ mantissa _ => mantissa == 0
  | _ => false

/-- Round half away from zero; numbers outside the range become its ends, and what is no number
becomes zero. -/
def toNatSaturating (max : Nat) : Binary64 → Nat
  | nan => 0
  | infinity negative => if negative then 0 else max
  | finite negative mantissa exponent =>
    if negative then 0 else min max ((Ratio.scale ⟨mantissa, 1⟩ 2 exponent).roundUp)

/-- Whether a decimal reads back as the number with this mantissa and exponent: whether it lies
between the midpoints to the neighbours, ends included for an even mantissa. -/
def readsBack (mantissa : Nat) (exponent : Int) (decimal : Ratio) : Bool :=
  let quarters := decimal.scale 2 (2 - exponent)
  let low := if mantissa = 1 <<< 52 ∧ exponent ≠ minExponent then 4 * mantissa - 1
    else 4 * mantissa - 2
  let high := 4 * mantissa + 2
  if mantissa % 2 = 0 then
    low * quarters.den ≤ quarters.num && quarters.num ≤ high * quarters.den
  else low * quarters.den < quarters.num && quarters.num < high * quarters.den

/-- The neighbours of a number among the multiples of `10 ^ grid`, the nearer one first.  Of two
that are equally near, the one above comes first. -/
def neighbours (mantissa : Nat) (exponent grid : Int) : List Nat :=
  let steps := (Ratio.scale ⟨mantissa, 1⟩ 2 exponent).scale 10 (-grid)
  let below := steps.floor
  if 2 * (steps.num % steps.den) < steps.den then [below, below + 1] else [below + 1, below]

/-- The coarsest decimal grid with a point that reads back, from `10 ^ grid` on downward. -/
def shortestFrom (mantissa : Nat) (exponent : Int) : Nat → Int → Nat × Int
  | 0, grid => (0, grid)
  | fuel + 1, grid =>
    match (neighbours mantissa exponent grid).find? fun c =>
        readsBack mantissa exponent (Ratio.scale ⟨c, 1⟩ 10 grid) with
    | some coefficient => (coefficient, grid)
    | none => shortestFrom mantissa exponent fuel (grid - 1)

/-- The fewest decimal digits that read back, and the power of ten they count. -/
def shortest (mantissa : Nat) (exponent : Int) : Nat × Int :=
  shortestFrom mantissa exponent 700 309

/-- Digits in positional notation, however many zeros that takes. -/
def positional (coefficient : Nat) (power : Int) : List Char :=
  let digits := Nat.toDigits 10 coefficient
  match power with
  | .ofNat n => digits ++ List.replicate n '0'
  | .negSucc n =>
    let places := n + 1
    let padded := List.replicate (places + 1 - digits.length) '0' ++ digits
    padded.take (padded.length - places) ++ '.' :: padded.drop (padded.length - places)

/-- Shortest digits in positional notation, without a point for whole numbers. -/
def text : Binary64 → String
  | nan => "NaN"
  | infinity negative => if negative then "-inf" else "inf"
  | finite negative mantissa exponent =>
    let digits :=
      if mantissa = 0 then ['0']
      else
        let (coefficient, power) := shortest mantissa exponent
        positional coefficient power
    String.ofList (if negative then '-' :: digits else digits)

end Binary64
end MqttBroker.Number

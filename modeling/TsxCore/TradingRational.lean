import TsxCore.TradingDecimal

/-!
# Bounded exact fractions (`trading_rational.ts`)

Numerator and denominator are integer texts of at most 256 digits. Every result
is reduced before it is checked, so only the reduced value can exceed the limit.
Decimal bounds round outwards and refuse integer parts of more than 36 digits.
-/

namespace TsxCore.TradingRational

open Outcome TradingDecimal

structure ExactRational where
  numerator : String
  denominator : String
  deriving DecidableEq

structure RationalDecimalBounds where
  lower : String
  upper : String
  exact : Bool

/-- `/^[1-9]\d{0,255}$/`. -/
def positiveInteger (cs : List Char) : Bool := Numeral.isNatural 256 cs && cs != ['0']

/-- `/^(?:0|-?[1-9]\d{0,255})$/`. -/
def integerPattern : List Char → Bool
  | '-' :: digits => positiveInteger digits
  | cs => Numeral.isNatural 256 cs

/-- `BigInt(value)` of an accepted integer text. -/
def bigint (value : String) : ℤ :=
  if isNegative value then -(Nat.ofDigitChars 10 (value.toList.drop 1) 0 : ℤ)
  else Nat.ofDigitChars 10 value.toList 0

def integers (value : ExactRational) : Outcome (ℤ × ℤ) := do
  throwIf (integerPattern value.numerator.toList = false ∨
    positiveInteger value.denominator.toList = false) (.error "Invalid bounded rational value.")
  return (bigint value.numerator, bigint value.denominator)

/-- Euclid's loop; the divisor decreases, so one more round than its value suffices. -/
def gcdLoop : ℕ → ℕ → ℕ → ℕ
  | 0, dividend, _ => dividend
  | fuel + 1, dividend, divisor =>
    if divisor = 0 then dividend else gcdLoop fuel divisor (dividend % divisor)

def gcd (left right : ℤ) : ℕ := gcdLoop (right.natAbs + 1) left.natAbs right.natAbs

def fraction (numerator denominator : ℤ) : Outcome ExactRational := do
  throwIf (denominator = 0) (.error "Rational division by zero.")
  let top := if denominator < 0 then -numerator else numerator
  let bottom := if denominator < 0 then -denominator else denominator
  let divisor : ℤ := gcd top bottom
  let result := ⟨bigintText (top.tdiv divisor), bigintText (bottom.tdiv divisor)⟩
  let _ ← integers result
  return result

def rational (value : ExactRational) : Outcome ExactRational := do
  let v ← integers value
  fraction v.1 v.2

def rationalFromDecimal (value : String) : Outcome ExactRational := do
  throwIf (hasSpace value = true) (.error "Invalid rational source decimal.")
  let normalized ← signedDecimal value
  let tail := fractionPart normalized
  fraction (bigint (.ofList (integerPart normalized ++ tail))) (10 ^ tail.length)

def addRational (left right : ExactRational) : Outcome ExactRational := do
  let l ← integers left
  let r ← integers right
  let divisor : ℤ := gcd l.2 r.2
  fraction (l.1 * r.2.tdiv divisor + r.1 * l.2.tdiv divisor) (l.2 * r.2.tdiv divisor)

def multiplyRational (left right : ExactRational) : Outcome ExactRational := do
  let l ← integers left
  let r ← integers right
  let first : ℤ := gcd l.1 r.2
  let second : ℤ := gcd r.1 l.2
  fraction (l.1.tdiv first * r.1.tdiv second) (l.2.tdiv second * r.2.tdiv first)

def divideRational (left right : ExactRational) : Outcome ExactRational := do
  let l ← integers left
  let r ← integers right
  throwIf (r.1 = 0) (.error "Rational division by zero.")
  fraction (l.1 * r.2) (l.2 * r.1)

def compareRational (left right : ExactRational) : Outcome ℤ := do
  let l ← integers left
  let r ← integers right
  let difference := l.1 * r.2 - r.1 * l.2
  return if difference < 0 then -1 else if 0 < difference then 1 else 0

def integerBounds (numerator denominator : ℤ) : ℤ × ℤ :=
  let quotient := numerator.tdiv denominator
  let remainder := numerator.tmod denominator
  (quotient - (if remainder < 0 then 1 else 0), quotient + (if 0 < remainder then 1 else 0))

def format (coefficient : ℤ) (scale : ℕ) : Outcome String :=
  let digits := (Nat.toDigits 10 coefficient.natAbs).leftpad (scale + 1) '0'
  let unsigned : String := if scale = 0 then .ofList digits
    else .ofList (digits.take (digits.length - scale) ++ '.' :: digits.drop (digits.length - scale))
  signedDecimal (if coefficient < 0 then "-" ++ unsigned else unsigned)

def rationalDecimalBounds (value : ExactRational) (scale : ℕ := 18) :
    Outcome RationalDecimalBounds := do
  throwIf (18 < scale) (.error "Rational decimal scale must be 0 through 18.")
  let v ← integers value
  let bounds := integerBounds (v.1 * 10 ^ scale) v.2
  return ⟨← format bounds.1 scale, ← format bounds.2 scale, bounds.1 == bounds.2⟩

inductive RoundingDirection
  | floor
  | ceil

def quantizeRational (value : ExactRational) (increment : String) (direction : RoundingDirection) :
    Outcome String := do
  throwIf (trim increment ≠ increment) (.error "Invalid rational increment.")
  let step ← rationalFromDecimal (← decimal increment true)
  let v ← integers value
  let s ← integers step
  let bounds := integerBounds (v.1 * s.2) (v.2 * s.1)
  let count := match direction with
    | .floor => bounds.1
    | .ceil => bounds.2
  let result ← multiplyRational (← fraction count 1) step
  let decimalBounds ← rationalDecimalBounds result
  throwIf (decimalBounds.exact = false)
    (.error "Rational increment cannot be represented exactly.")
  return decimalBounds.lower

end TsxCore.TradingRational

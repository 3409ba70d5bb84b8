import RecordQuery.Decimal.Notation
import RecordQuery.Json.Basic
import RecordQuery.Json.Token

/-!
# The value of a JSON number

A number without fraction and exponent that fits sixty-four bits is an integer, or the text of its
digits where only the unsigned range holds it. Every other number is read as a double and stands
for the notation of that double.

The double is computed from a significand of sixty-four bits, which takes digits in as long as they
fit: digits before the point that do not fit raise the exponent, digits after it are dropped. The
significand is scaled by one power of ten; below `10 ^ -308` it is first scaled by that power, as
often as needed. A number too large for a double has no value.
-/

namespace RecordQuery.Json

/-! ## Significand and exponent -/

/-- The significands that fit sixty-four bits. -/
def significandBound : Nat := Nat.pow 2 64

/-- Takes digits into a significand as long as it fits, and returns it with the digits left. -/
def takeDigits : Nat → List Char → Nat × List Char
  | significand, [] => (significand, [])
  | significand, digit :: rest =>
    let next := significand * 10 + (digit.toNat - '0'.toNat)
    if next < significandBound then takeDigits next rest else (significand, digit :: rest)

/-- A significand and the exponent of ten that scales it, the digits of the exponent part left
out. -/
def NumberLiteral.scaled (literal : NumberLiteral) : Nat × Int :=
  let (significand, surplus) := takeDigits 0 literal.whole
  match literal.fraction with
  | none => (significand, surplus.length)
  | some digits =>
    let (significand, dropped) := takeDigits significand digits
    (significand, (surplus.length : Int) - (digits.length - dropped.length : Nat))

/-! ## Doubles -/

/-- The largest power of ten that is a double. -/
def maxTenPower : Nat := 308

/-- The double nearest to `10 ^ n`. -/
def tenPower (n : Nat) : Float :=
  Float.ofScientific 1 false n

/-- Divides by `10 ^ n`, by the largest power first. -/
def scaleDown (x : Float) (n : Nat) : Float :=
  if n ≤ maxTenPower then x / tenPower n
  else if x == 0.0 then x
  else scaleDown (x / tenPower maxTenPower) (n - maxTenPower)
termination_by n
decreasing_by simp [maxTenPower] at *; omega

/-- Multiplies by `10 ^ n`, unless the product is too large for a double. -/
def scaleUp? (x : Float) (n : Nat) : Option Float :=
  if n ≤ maxTenPower then
    let y := x * tenPower n
    if y.isInf then none else some y
  else if x == 0.0 then some x
  else none

/-- The largest exponent that is taken as it is written. -/
def maxExponent : Nat := Nat.pow 2 31 - 1

/-- The positive double that a significand and exponents stand for. An exponent beyond
`maxExponent` leaves a number too large or zero, whatever the digits say. -/
def magnitude? (significand : Nat) (shift : Int) : Option (Bool × List Char) → Option Float
  | none => scale shift
  | some (negative, digits) =>
    let exponent := Nat.ofDigitChars 10 digits 0
    if maxExponent < exponent then
      if negative ∨ significand = 0 then some 0.0 else none
    else scale (shift + if negative then -(exponent : Int) else exponent)
where
  /-- The significand times a power of ten. -/
  scale (exponent : Int) : Option Float :=
    let x := (UInt64.ofNat significand).toFloat
    if 0 ≤ exponent then scaleUp? x exponent.toNat else some (scaleDown x exponent.natAbs)

/-! ## Numbers -/

/-- The number without fraction and exponent, if it is one. -/
def NumberLiteral.int? (literal : NumberLiteral) : Option Int :=
  match literal.fraction, literal.exponent with
  | none, none =>
    let magnitude : Int := Nat.ofDigitChars 10 literal.whole 0
    some (if literal.negative then -magnitude else magnitude)
  | _, _ => none

/-- The number as a double, in decimal notation. -/
def NumberLiteral.double? (literal : NumberLiteral) : Option Json := do
  let (significand, shift) := literal.scaled
  let x ← magnitude? significand shift literal.exponent
  return .numeral (Decimal.text (if literal.negative then -x else x))

/-- The value of a number. Minus zero is no integer: it is the double of that sign. -/
def NumberLiteral.value? (literal : NumberLiteral) : Option Json :=
  match literal.int? with
  | none => literal.double?
  | some n =>
    if literal.negative ∧ n = 0 then literal.double?
    else if Int64.minValue.toInt ≤ n ∧ n ≤ Int64.maxValue.toInt then some (.integer (Int64.ofInt n))
    else if 0 ≤ n ∧ n < significandBound then some (.numeral (String.ofList (Nat.toDigits 10 n.toNat)))
    else literal.double?

end RecordQuery.Json

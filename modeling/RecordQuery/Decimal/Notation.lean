import RecordQuery.Decimal.Shortest

/-!
# Decimal notation

How a number with a fraction is written. The digits are the shortest that read back. With the
leading digit at place `10 ^ e`, the number is written positionally for `e` from -5 to 15, and then
always with a point (`1.0`, `0.00001`); otherwise the point follows the leading digit and the
exponent follows the digits with its sign (`1e-7`, `1.2345e+20`). Zero keeps its sign.
-/

namespace RecordQuery.Decimal

/-- The exponents of the leading digit, first and last included, that are written positionally. -/
def positionalExponents : Int × Int := (-5, 15)

/-- Digits without the zeros at their end. -/
def dropEndZeros (digits : List Char) : List Char :=
  (digits.reverse.dropWhile (· = '0')).reverse

/-- Digits with the point after the first `e + 1` of them, `e` being the exponent of the leading
digit. Zeros fill the places that have no digit. -/
def positional (digits : List Char) (e : Int) : List Char :=
  if e < 0 then
    '0' :: '.' :: (List.replicate (-e - 1).toNat '0' ++ digits)
  else if digits.length ≤ e.toNat + 1 then
    digits ++ List.replicate (e.toNat + 1 - digits.length) '0' ++ ['.', '0']
  else digits.take (e.toNat + 1) ++ '.' :: digits.drop (e.toNat + 1)

/-- Digits with the point after the first of them and the exponent of the leading digit. -/
def scientific (digits : List Char) (e : Int) : List Char :=
  digits.take 1 ++ (if digits.length ≤ 1 then [] else '.' :: digits.drop 1) ++
    'e' :: (if e < 0 then '-' else '+') :: Nat.toDigits 10 e.natAbs

/-- A positive decimal in decimal notation. -/
def letters (d : Decimal) : List Char :=
  let written := Nat.toDigits 10 d.digits
  let e := d.exponent + (written.length - 1 : Nat)
  if positionalExponents.1 ≤ e ∧ e ≤ positionalExponents.2 then positional (dropEndZeros written) e
  else scientific (dropEndZeros written) e

/-- A finite double, given by its bits, in decimal notation. -/
def lettersOfBits (bits : UInt64) : List Char :=
  let b := Binary.ofBits bits
  (if bits.toNat / Nat.pow 2 63 = 1 then ['-'] else []) ++
    (if b.mantissa = 0 then ['0', '.', '0'] else letters b.shortest)

/-- A finite double in decimal notation. -/
def text (x : Float) : String :=
  String.ofList (lettersOfBits x.toBits)

/-- Where the two notations meet. -/
example : [(⟨1, -5⟩ : Decimal), ⟨1, -6⟩, ⟨1, 15⟩, ⟨1, 16⟩, ⟨12345, 16⟩, ⟨25, -1⟩].map
      (fun d => String.ofList (letters d)) =
    ["0.00001", "1e-6", "1000000000000000.0", "1e+16", "1.2345e+20", "2.5"] := by decide +kernel

end RecordQuery.Decimal

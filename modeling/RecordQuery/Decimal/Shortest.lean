/-!
# The shortest decimal of a binary number

A finite binary number stands for every real number that rounds to it. Of the decimals in that
interval this module picks one with the fewest digits, the nearest of those to the number itself,
and the one with an even last digit if two are equally near. All comparisons are between natural
numbers and exact.

* `Binary` is `mantissa * 2 ^ exponent`, read off the bits of a double by `Binary.ofBits`.
* `Binary.readsBack` is the interval.
* `Binary.shortest` is the decimal picked.
-/

namespace RecordQuery

/-! ## The two kinds of number -/

/-- A finite number `mantissa * 2 ^ exponent` of a binary format, its sign left out. -/
structure Binary where
  /-- The significant bits as a natural number. -/
  mantissa : Nat
  /-- The power of two that scales them. -/
  exponent : Int
  /-- Whether the next number below is only half as far away as the next one above. -/
  narrowBelow : Bool
deriving DecidableEq, Repr

/-- A decimal `digits * 10 ^ exponent`. -/
structure Decimal where
  /-- The significant digits as a natural number. -/
  digits : Nat
  /-- The power of ten that scales them. -/
  exponent : Int
deriving DecidableEq, Repr

namespace Binary

/-- The number that the bits of a finite double stand for, its sign left out: fifty-two bits of
fraction under eleven bits of exponent. -/
def ofBits (bits : UInt64) : Binary :=
  let fraction : Nat := bits.toNat % Nat.pow 2 52
  let scale : Nat := bits.toNat / Nat.pow 2 52 % Nat.pow 2 11
  if scale = 0 then ⟨fraction, -1074, false⟩
  else ⟨Nat.pow 2 52 + fraction, (scale : Int) - 1075, fraction = 0 ∧ 1 < scale⟩

/-! ## The interval -/

/-- Compares `d` with `quarters / 4 * 2 ^ b.exponent`. Interval ends lie on quarters of the last
binary place, so that no fraction is needed. -/
def compareQuarters (b : Binary) (d : Decimal) (quarters : Nat) : Ordering :=
  let shift := b.exponent - 2
  compare (d.digits * Nat.pow 10 d.exponent.toNat * Nat.pow 2 (-shift).toNat)
    (quarters * Nat.pow 2 shift.toNat * Nat.pow 10 (-d.exponent).toNat)

/-- Four times the mantissa at the lower end of the interval. -/
def lowerEnd (b : Binary) : Nat :=
  4 * b.mantissa - (if b.narrowBelow then 1 else 2)

/-- Four times the mantissa at the upper end of the interval. -/
def upperEnd (b : Binary) : Nat :=
  4 * b.mantissa + 2

/-- Whether the decimal rounds to the binary number. A decimal half way between two neighbours
rounds to the one with an even mantissa. -/
def readsBack (b : Binary) (d : Decimal) : Bool :=
  let low := b.compareQuarters d b.lowerEnd
  let high := b.compareQuarters d b.upperEnd
  if b.mantissa % 2 = 0 then low.isGE && high.isLE else low.isGT && high.isLT

/-! ## The search -/

/-- The whole number of units `10 ^ place` below or at the number. -/
def floorAt (b : Binary) (place : Int) : Nat :=
  b.mantissa * Nat.pow 2 b.exponent.toNat * Nat.pow 10 (-place).toNat /
    (Nat.pow 2 (-b.exponent).toNat * Nat.pow 10 place.toNat)

/-- The decimal place above the leading digit: the least `k` with the number below `10 ^ k`. -/
def magnitude (b : Binary) : Int :=
  if 0 < b.floorAt 0 then (Nat.toDigits 10 (b.floorAt 0)).length
  else
    let inverse := Nat.pow 2 (-b.exponent).toNat / b.mantissa
    let zeros : Nat := (Nat.toDigits 10 inverse).length - 1
    if b.mantissa * Nat.pow 10 zeros < Nat.pow 2 (-b.exponent).toNat then -zeros else 1 - zeros

/-- Of the two multiples of `10 ^ place` around the number, the one that reads back; if both do,
the nearer one, and the even one where neither is nearer. -/
def nearestAt? (b : Binary) (place : Int) : Option Decimal :=
  let below : Decimal := ⟨b.floorAt place, place⟩
  let above : Decimal := ⟨b.floorAt place + 1, place⟩
  match b.readsBack below, b.readsBack above with
  | true, false => some below
  | false, true => some above
  | false, false => none
  | true, true =>
    -- the middle between the two, against the number
    match b.compareQuarters ⟨below.digits + above.digits, place⟩ (8 * b.mantissa) with
    | .gt => some below
    | .lt => some above
    | .eq => some (if below.digits % 2 = 0 then below else above)

/-- The number itself, as a decimal. -/
def exactly (b : Binary) : Decimal :=
  if 0 ≤ b.exponent then ⟨b.mantissa * Nat.pow 2 b.exponent.toNat, 0⟩
  else ⟨b.mantissa * Nat.pow 5 (-b.exponent).toNat, b.exponent⟩

/-- The shortest decimal that reads back. Seventeen digits suffice for a double. -/
def shortest (b : Binary) : Decimal :=
  match (List.range 17).findSome? fun (n : Nat) => b.nearestAt? (b.magnitude - (n + 1 : Nat)) with
  | some d => d
  | none => b.exactly

end Binary

/-- One tenth needs one digit, and its neighbour above needs seventeen. -/
example : (Binary.ofBits 0x3FB999999999999A).shortest = ⟨1, -1⟩ ∧
    (Binary.ofBits 0x3FB999999999999B).shortest = ⟨10000000000000002, -17⟩ := by decide +kernel

/-- The least positive double, and `10 ^ 23`, which lies on the end of the interval of its double. -/
example : (Binary.ofBits 1).shortest = ⟨5, -324⟩ ∧
    (Binary.ofBits 0x44B52D02C7E14AF6).shortest = ⟨10, 22⟩ := by decide +kernel

end RecordQuery

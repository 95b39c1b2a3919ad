/-!
# Binary fractions of 64 bits

A decimal number is kept as the nearest binary fraction with a significand of at most 53 bits. Of
two that are equally near it is the one with an even significand.
-/

namespace EntityForge.Decimal

/-- The number `digits * 10 ^ exponent`. -/
structure Scientific where
  digits : Nat
  exponent : Int
  deriving DecidableEq, Repr

/-- The number `significand * 2 ^ exponent`. -/
structure Binary where
  significand : Nat
  exponent : Int
  deriving DecidableEq, Repr

/-- The significands reach up to this one. -/
def Binary.limit : Nat :=
  0x20000000000000

/-- Above the smallest exponent the significands begin with this one. -/
def Binary.half : Nat :=
  0x10000000000000

/-- The smallest exponent of a binary fraction. -/
def Binary.least : Int :=
  -1074

/-- The largest exponent of a binary fraction. -/
def Binary.greatest : Int :=
  971

/-- The integer nearest to a fraction; a half goes to the even neighbour. -/
def round (numerator denominator : Nat) : Nat :=
  let whole := numerator / denominator
  let twice := 2 * (numerator % denominator)
  if twice < denominator ∨ (twice = denominator ∧ whole % 2 = 0) then whole else whole + 1

/-- A fraction divided by `base ^ exponent`. -/
def shift (base : Nat) (exponent : Int) (fraction : Nat × Nat) : Nat × Nat :=
  if exponent < 0 then (fraction.1 * Nat.pow base (-exponent).toNat, fraction.2)
  else (fraction.1, fraction.2 * Nat.pow base exponent.toNat)

/-- The largest exponent for which a power of two is not above a fraction. -/
def magnitude (fraction : Nat × Nat) : Int :=
  let guess : Int := (fraction.1.log2 : Int) - fraction.2.log2
  let (n, d) := shift 2 guess fraction
  if d ≤ n then guess else guess - 1

/-- The nearest binary fraction, unless that is beyond all of them. -/
def nearest? (fraction : Nat × Nat) : Option Binary :=
  let wanted := magnitude fraction - 52
  let exponent := if wanted < Binary.least then Binary.least else wanted
  let (n, d) := shift 2 exponent fraction
  let significand := round n d
  let carried : Binary :=
    if significand = Binary.limit then ⟨Binary.half, exponent + 1⟩ else ⟨significand, exponent⟩
  if carried.exponent ≤ Binary.greatest then some carried else none

/-- The binary fraction that a decimal number is kept as, unless it is beyond all of them. Numbers
far out of range are told by their number of digits. -/
def Scientific.binary? (s : Scientific) : Option Binary :=
  let size := (Nat.toDigits 10 s.digits).length + s.exponent
  if s.digits = 0 ∨ size < -400 then some ⟨0, Binary.least⟩
  else if 400 < size then none
  else nearest? (shift 10 (-s.exponent) (s.digits, 1))

end EntityForge.Decimal

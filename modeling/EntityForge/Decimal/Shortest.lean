import EntityForge.Decimal.Nearest

/-!
# Shortest decimal text

A binary fraction is written with the fewest digits from which it can be read back, and without an
exponent. Of two texts of that length it is the nearer one.
-/

namespace EntityForge.Decimal

namespace Binary

variable (b : Binary)

/-- So many quarters of the last place of the significand, as a fraction. -/
def quarters (count : Nat) : Nat × Nat :=
  shift 2 (-b.exponent) (count, 4)

/-- The numbers between these two are kept as this binary fraction. The lower one is nearer where
the significands of the next smaller exponent end. -/
def bounds : (Nat × Nat) × (Nat × Nat) :=
  let below := if b.significand = half ∧ least < b.exponent then 1 else 2
  (b.quarters (4 * b.significand - below), b.quarters (4 * b.significand + 2))

/-- Whether a decimal number is kept as this binary fraction. -/
def isReadFrom (s : Scientific) : Bool :=
  let (n, d) := shift 10 (-s.exponent) (s.digits, 1)
  let (low, high) := b.bounds
  if b.significand % 2 = 0 then low.1 * d ≤ n * low.2 && n * high.2 ≤ high.1 * d
  else low.1 * d < n * low.2 && n * high.2 < high.1 * d

/-- The best decimal number with an exponent that is kept as this binary fraction, if there is
one. -/
def candidate? (exponent : Int) : Option Scientific :=
  let (n, d) := shift 10 exponent (b.quarters (4 * b.significand))
  let lower : Scientific := ⟨n / d, exponent⟩
  let upper : Scientific := ⟨n / d + 1, exponent⟩
  match b.isReadFrom lower, b.isReadFrom upper with
  | true, true => some (if 2 * (n % d) ≤ d then lower else upper)
  | true, false => some lower
  | false, true => some upper
  | false, false => none

/-- The decimal exponents from the largest that a candidate can have to the smallest that one
needs. -/
def exponents : List Int :=
  (List.range 660).map fun (n : Nat) => 310 - Int.ofNat n

/-- The decimal number with the fewest digits that is kept as this binary fraction. -/
def shortest : Scientific :=
  if b.significand = 0 then ⟨0, 0⟩ else (exponents.findSome? b.candidate?).getD ⟨0, 0⟩

end Binary

/-- A decimal number without an exponent. -/
def Scientific.plain (s : Scientific) : String :=
  let digits := Nat.toDigits 10 s.digits
  if s.exponent < 0 then
    let places := (-s.exponent).toNat
    let padded := List.replicate (places + 1 - digits.length) '0' ++ digits
    let whole := padded.length - places
    String.ofList (padded.take whole ++ ['.'] ++ padded.drop whole)
  else String.ofList (digits ++ List.replicate s.exponent.toNat '0')

/-- The text of a number that is kept as a binary fraction. -/
def text (negative : Bool) (s : Scientific) : String :=
  let unsigned :=
    match s.binary? with
    | some b => b.shortest.plain
    | none => "inf"
  if negative then "-" ++ unsigned else unsigned

end EntityForge.Decimal

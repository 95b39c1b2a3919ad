import EntityForge.Decimal.Nearest
import EntityForge.Text.Digits

/-!
# Decimal literals

A decimal number is written as a sign, digits with or without a point among them, and an exponent of
ten. Sign and exponent may be missing, and so may the digits on one side of the point.
-/

namespace EntityForge.Decimal

open Text

/-- Whether a text begins with a minus sign, and the text after its sign. -/
def signed : List Char → Bool × List Char
  | '+' :: rest => (false, rest)
  | '-' :: rest => (true, rest)
  | s => (false, s)

/-- The exponent at the end of a number. -/
def exponent? : List Char → Option Int
  | [] => some 0
  | mark :: rest =>
    if mark = 'e' ∨ mark = 'E' then
      let (negative, digits) := signed rest
      (number? 10 digits).map fun n => if negative then -(n : Int) else n
    else none

/-- The number that a text without a sign stands for. -/
def Scientific.ofDigits? (s : List Char) : Option Scientific := do
  let whole := s.takeWhile Char.isDigit
  let rest := s.dropWhile Char.isDigit
  let (places, rest) := match rest with
    | '.' :: more => (more.takeWhile Char.isDigit, more.dropWhile Char.isDigit)
    | _ => ([], rest)
  let digits ← number? 10 (whole ++ places)
  let exponent ← exponent? rest
  return ⟨digits, exponent - places.length⟩

/-- The number that a text stands for, and whether it has a minus sign. -/
def Scientific.ofLiteral? (s : List Char) : Option (Bool × Scientific) :=
  let (negative, unsigned) := signed s
  (ofDigits? unsigned).map fun n => (negative, n)

end EntityForge.Decimal

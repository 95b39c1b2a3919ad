import EntityForge.Config.Value
import EntityForge.Decimal.Literal
import EntityForge.Decimal.Shortest
import EntityForge.Text.Digits

/-!
# Numbers and dates of a TOML document

Digits may be divided by single underscores. An integer has 64 bits with its sign. Of a date only
that it is well formed matters here.
-/

namespace EntityForge.Config.Toml

open Text

/-- Reads digits that may be divided by underscores, and leaves these out. -/
def digits? (base : Nat) : List Char → Option (List Char × List Char)
  | [] => none
  | [c] => if (digit? base c).isSome then some ([c], []) else none
  | c :: d :: rest =>
    if (digit? base c).isNone then none
    else if d = '_' then (digits? base rest).map fun p => (c :: p.1, p.2)
    else if (digit? base d).isSome then (digits? base (d :: rest)).map fun p => (c :: p.1, p.2)
    else some ([c], d :: rest)

/-- Reads the digits before a point: a zero stands alone. -/
def whole? : List Char → Option (List Char × List Char)
  | '0' :: rest => some (['0'], rest)
  | s => digits? 10 s

/-- Reads a point with the digits after it. -/
def places? : List Char → Option (List Char × List Char)
  | '.' :: rest => (digits? 10 rest).map fun p => ('.' :: p.1, p.2)
  | s => some ([], s)

/-- Reads an exponent. -/
def power? : List Char → Option (List Char × List Char)
  | [] => some ([], [])
  | mark :: rest =>
    if mark = 'e' ∨ mark = 'E' then
      match rest with
      | '+' :: more => (digits? 10 more).map fun p => ('e' :: p.1, p.2)
      | '-' :: more => (digits? 10 more).map fun p => ('e' :: '-' :: p.1, p.2)
      | _ => (digits? 10 rest).map fun p => ('e' :: p.1, p.2)
    else some ([], mark :: rest)

/-- An integer, if it has 64 bits. -/
def integer? (negative : Bool) (n : Nat) : Option Value :=
  if negative then if n ≤ signedLimit then some (.integer (-n)) else none
  else if n < signedLimit then some (.integer n) else none

/-- A number with a point or an exponent, if it is not beyond all that can be kept. Below all of
them it is infinite. -/
def float? (negative : Bool) (text : List Char) : Option Value := do
  let n ← Decimal.Scientific.ofDigits? text
  guard (negative || n.binary?.isSome)
  return .decimal (Decimal.text negative n)

/-- Reads a number in base ten after its sign. -/
def unsigned? (negative : Bool) (s : List Char) : Option (Value × List Char) := do
  match s with
  | 'i' :: 'n' :: 'f' :: rest => return (.decimal (if negative then "-inf" else "inf"), rest)
  | 'n' :: 'a' :: 'n' :: rest => return (.decimal "NaN", rest)
  | _ =>
    let (whole, rest) ← whole? s
    let (places, rest) ← places? rest
    let (power, rest) ← power? rest
    if places.isEmpty && power.isEmpty then
      return (← integer? negative (← number? 10 whole), rest)
    else return (← float? negative (whole ++ places ++ power), rest)

/-- Reads a number in base two, eight or sixteen. -/
def based? (base : Nat) (s : List Char) : Option (Value × List Char) := do
  let (digits, rest) ← digits? base s
  return (← integer? false (← number? base digits), rest)

/-- Reads a number. -/
def plainNumber? : List Char → Option (Value × List Char)
  | '0' :: 'x' :: rest => based? 16 rest
  | '0' :: 'o' :: rest => based? 8 rest
  | '0' :: 'b' :: rest => based? 2 rest
  | '+' :: rest => unsigned? false rest
  | '-' :: rest => unsigned? true rest
  | s => unsigned? false s

/-- Reads a number of so many digits. -/
def fixed? (count : Nat) (s : List Char) : Option (Nat × List Char) :=
  let digits := s.take count
  if digits.length = count then (number? 10 digits).map fun n => (n, s.drop count) else none

/-- Takes a mark. -/
def mark? (c : Char) : List Char → Option (List Char)
  | d :: rest => if d = c then some rest else none
  | [] => none

/-- The number of days in a month. -/
def days (year month : Nat) : Nat :=
  if month = 2 then
    if year % 4 = 0 ∧ (year % 100 ≠ 0 ∨ year % 400 = 0) then 29 else 28
  else if month = 4 ∨ month = 6 ∨ month = 9 ∨ month = 11 then 30
  else 31

/-- Takes a date. -/
def date? (s : List Char) : Option (List Char) := do
  let (year, s) ← fixed? 4 s
  let (month, s) ← fixed? 2 (← mark? '-' s)
  let (day, s) ← fixed? 2 (← mark? '-' s)
  guard (1 ≤ month ∧ month ≤ 12 ∧ 1 ≤ day ∧ day ≤ days year month)
  return s

/-- Takes hours and minutes. -/
def clock? (s : List Char) : Option (List Char) := do
  let (hour, s) ← fixed? 2 s
  let (minute, s) ← fixed? 2 (← mark? ':' s)
  guard (hour ≤ 23 ∧ minute ≤ 59)
  return s

/-- Takes a time of the day. -/
def time? (s : List Char) : Option (List Char) := do
  let s ← clock? s
  let (second, s) ← fixed? 2 (← mark? ':' s)
  guard (second ≤ 60)
  match s with
  | '.' :: c :: rest => if c.isDigit then return rest.dropWhile Char.isDigit else none
  | '.' :: [] => none
  | _ => return s

/-- Takes the distance of a local time from universal time, if it is there. -/
def skipZone (s : List Char) : List Char :=
  match s with
  | [] => []
  | c :: rest =>
    if c = 'Z' ∨ c = 'z' then rest
    else if c = '+' ∨ c = '-' then (clock? rest).getD s
    else s

/-- Takes the time of the day after a date, if it is there. -/
def skipTime (s : List Char) : List Char :=
  match s with
  | [] => []
  | c :: rest =>
    if c = 'T' ∨ c = 't' ∨ c = ' ' then ((time? rest).map skipZone).getD s else s

/-- Takes a date, a time, or both. -/
def moment? (s : List Char) : Option (List Char) :=
  match date? s with
  | some rest => some (skipTime rest)
  | none => time? s

/-- The key under which a date stands for a table. -/
def momentKey : String :=
  "$__toml_private_datetime"

/-- Reads a number or a date. -/
def numeral? (s : List Char) : Option (Value × List Char) :=
  match moment? s with
  | some rest =>
    let written := String.ofList (s.take (s.length - rest.length))
    some (.table [(momentKey, .text written)], rest)
  | none => plainNumber? s

end EntityForge.Config.Toml

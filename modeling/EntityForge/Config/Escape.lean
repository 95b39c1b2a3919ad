import EntityForge.Text.Digits

/-!
# Strings with escapes

Configuration files and variables write a string in double quotes, with a backslash before what
could not stand there otherwise.
-/

namespace EntityForge.Config.Escape

open Text

/-- The character with a code point, if there is one. -/
def scalar? (n : Nat) : Option Char :=
  if n.isValidChar then some (Char.ofNat n) else none

/-- The character that hexadecimal digits name. -/
def named? (digits : List Char) : Option Char :=
  (number? 16 digits).bind scalar?

/-- The character that one letter after a backslash stands for. -/
def letter? (c : Char) : Option Char :=
  if c = '"' ∨ c = '\\' then some c
  else if c = 'b' then some '\x08'
  else if c = 't' then some '\t'
  else if c = 'n' then some '\n'
  else if c = 'f' then some '\x0c'
  else if c = 'r' then some '\r'
  else none

/-- Whether a character can stand in a string as it is. -/
def isPlain (c : Char) : Bool :=
  c = '\t' || (0x20 ≤ c.toNat && c.toNat ≠ 0x7F)

/-- Reads what follows a backslash and answers with the character that it stands for. -/
def character? : List Char → Option (Char × List Char)
  | 'u' :: a :: b :: c :: d :: rest => (named? [a, b, c, d]).map fun n => (n, rest)
  | 'U' :: a :: b :: c :: d :: e :: f :: g :: h :: rest =>
    (named? [a, b, c, d, e, f, g, h]).map fun n => (n, rest)
  | c :: rest => (letter? c).map fun l => (l, rest)
  | [] => none

/-- An escape takes at least one character. -/
theorem length_character? {s rest : List Char} {c : Char} (h : character? s = some (c, rest)) :
    rest.length < s.length := by
  unfold character? at h
  split at h
  case h_4 => cases h
  all_goals
    obtain ⟨_, _, he⟩ := Option.map_eq_some_iff.mp h
    cases he
    simp only [List.length_cons]
    omega

/-- Reads a string after its opening quote, up to and with its closing one. -/
def string? (s : List Char) : Option (List Char × List Char) :=
  match s with
  | [] => none
  | c :: rest =>
    if c = '"' then some ([], rest)
    else if c = '\\' then
      match _h : character? rest with
      | none => none
      | some (meant, after) => (string? after).map fun p => (meant :: p.1, p.2)
    else if isPlain c then (string? rest).map fun p => (c :: p.1, p.2)
    else none
termination_by s.length
decreasing_by
  · have := length_character? _h
    simp only [List.length_cons]
    omega
  · simp

end EntityForge.Config.Escape

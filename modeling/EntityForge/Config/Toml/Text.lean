import EntityForge.Config.Toml.Blank

/-!
# Texts of a TOML document

A text stands between single or double quotes. Within double quotes a backslash escapes. Between
three quotes a text can have several lines, and up to two quotes before its end belong to it.
-/

namespace EntityForge.Config.Toml

/-- Reads a text between single quotes after the first one. -/
def literal? (s : List Char) : Option (List Char × List Char) :=
  let isInside (c : Char) := Escape.isPlain c && c ≠ '\''
  match s.dropWhile isInside with
  | '\'' :: rest => some (s.takeWhile isInside, rest)
  | _ => none

/-- Skips a line end and the white space and line ends around it, as they may follow a backslash. -/
def skipFold? (s : List Char) : Option (List Char) :=
  (lineEnd? (skipBlanks s)).map (skipLines false)

/-- A fold takes at least one character. -/
theorem length_skipFold? {s rest : List Char} (h : skipFold? s = some rest) :
    rest.length < s.length := by
  obtain ⟨after, hend, rfl⟩ := Option.map_eq_some_iff.mp h
  have h₁ := length_lineEnd? hend
  have h₂ := (List.dropWhile_suffix isBlank (l := s)).length_le
  have h₃ := length_skipLines false after
  unfold skipBlanks at h₁
  omega

/-- Takes three quotes and the further ones before them that belong to the text. -/
def close? (quote : Char) : List Char → Option (List Char × List Char)
  | a :: b :: c :: rest =>
    if a = quote ∧ b = quote ∧ c = quote then
      let extra := (rest.take 2).takeWhile (· == quote)
      some (extra, rest.drop extra.length)
    else none
  | _ => none

/-- Reads a text between three quotes after the first three. -/
def block? (quote : Char) (escapes : Bool) (s : List Char) : Option (List Char × List Char) :=
  match s with
  | [] => none
  | c :: rest =>
    match close? quote (c :: rest) with
    | some closed => some closed
    | none =>
      if escapes ∧ c = '\\' then
        match _h : skipFold? rest with
        | some after => block? quote escapes after
        | none =>
          match _k : Escape.character? rest with
          | some (meant, after) => (block? quote escapes after).map fun p => (meant :: p.1, p.2)
          | none => none
      else
        match _h : lineEnd? (c :: rest) with
        | some after => (block? quote escapes after).map fun p => ('\n' :: p.1, p.2)
        | none =>
          if Escape.isPlain c then (block? quote escapes rest).map fun p => (c :: p.1, p.2)
          else none
termination_by s.length
decreasing_by
  · have := length_skipFold? _h
    simp only [List.length_cons]
    omega
  · have := Escape.length_character? _k
    simp only [List.length_cons]
    omega
  · exact length_lineEnd? _h
  · simp

/-- A text without one line end at its beginning. -/
def skipFirstEnd (s : List Char) : List Char :=
  (lineEnd? s).getD s

/-- Reads a text on one line. -/
def line? : List Char → Option (List Char × List Char)
  | '"' :: rest => Escape.string? rest
  | '\'' :: rest => literal? rest
  | _ => none

/-- Reads a text. -/
def text? : List Char → Option (List Char × List Char)
  | '"' :: '"' :: '"' :: rest => block? '"' true (skipFirstEnd rest)
  | '\'' :: '\'' :: '\'' :: rest => block? '\'' false (skipFirstEnd rest)
  | s => line? s

end EntityForge.Config.Toml

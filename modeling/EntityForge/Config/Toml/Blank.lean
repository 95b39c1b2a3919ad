import EntityForge.Config.Escape

/-!
# White space and comments of a TOML document
-/

namespace EntityForge.Config.Toml

/-- White space within a line. -/
def isBlank (c : Char) : Bool :=
  c = ' ' || c = '\t'

/-- A text without leading white space. -/
def skipBlanks (s : List Char) : List Char :=
  s.dropWhile isBlank

/-- Takes the end of a line. -/
def lineEnd? : List Char → Option (List Char)
  | '\n' :: rest => some rest
  | '\r' :: '\n' :: rest => some rest
  | _ => none

/-- A line end takes at least one character. -/
theorem length_lineEnd? {s rest : List Char} (h : lineEnd? s = some rest) :
    rest.length < s.length := by
  unfold lineEnd? at h
  split at h
  case h_3 => cases h
  all_goals
    cases h
    simp only [List.length_cons]
    omega

/-- Skips a comment up to the end of its line. -/
def skipComment : List Char → List Char
  | '#' :: rest => rest.dropWhile Escape.isPlain
  | s => s

/-- A comment is not longer than the text that it stands in. -/
theorem length_skipComment (s : List Char) : (skipComment s).length ≤ s.length := by
  unfold skipComment
  split
  · have := (List.dropWhile_suffix Escape.isPlain (l := ‹List Char›)).length_le
    simp only [List.length_cons]
    omega
  · exact Nat.le_refl _

/-- Skips white space and line ends, and comments where they are allowed. A comment without a line
end is left. -/
def skipLines (comments : Bool) (s : List Char) : List Char :=
  match s with
  | [] => []
  | c :: rest =>
    if isBlank c then skipLines comments rest
    else
      match _h : lineEnd? (if comments then skipComment (c :: rest) else c :: rest) with
      | some after => skipLines comments after
      | none => c :: rest
termination_by s.length
decreasing_by
  · simp
  · have h₁ := length_lineEnd? _h
    have h₂ := length_skipComment (c :: rest)
    split at h₁ <;> omega

/-- Skipping does not make a text longer. -/
theorem length_skipLines (comments : Bool) (s : List Char) :
    (skipLines comments s).length ≤ s.length := by
  fun_induction skipLines comments s with
  | case1 => exact Nat.le_refl _
  | case2 c rest _ ih =>
    simp only [List.length_cons]
    omega
  | case3 c rest _ after h ih =>
    have h₁ := length_lineEnd? h
    have h₂ := length_skipComment (c :: rest)
    split at h₁ <;> omega
  | case4 => exact Nat.le_refl _

/-- Takes what may follow a statement: white space, a comment, and the end of the line or of the
text. -/
def statementEnd? (s : List Char) : Option (List Char) :=
  match skipComment (skipBlanks s) with
  | [] => some []
  | rest => lineEnd? rest

end EntityForge.Config.Toml

/-!
# Lines and occurrences

A text as its lines, and the replacement of a part of a text wherever it occurs.
-/

namespace EntityForge.Text

/-- The lines of a text, without the line feed or the carriage return and line feed that end them.
A last line needs no end. -/
def lines : List Char → List (List Char)
  | [] => []
  | '\n' :: rest => [] :: lines rest
  | '\r' :: '\n' :: rest => [] :: lines rest
  | c :: rest =>
    match lines rest with
    | [] => [[c]]
    | line :: more => (c :: line) :: more

/-- Replaces the occurrences of `old`, read from the left; an empty `old` occurs nowhere. -/
def replace (old new : List Char) : List Char → List Char
  | [] => []
  | c :: rest =>
    if old ≠ [] ∧ old.isPrefixOf (c :: rest) then
      new ++ replace old new ((c :: rest).drop old.length)
    else c :: replace old new rest
termination_by s => s.length
decreasing_by
  · rename_i h
    have := List.length_pos_iff.mpr h.1
    simp only [List.length_drop, List.length_cons]
    omega
  · simp

/-- The text before the first character equal to `mark`, if there is one. -/
def before? (mark : Char) : List Char → Option (List Char)
  | [] => none
  | c :: rest => if c = mark then some [] else (before? mark rest).map (c :: ·)

/-- Whether `part` occurs in a text. -/
def contains (part : List Char) : List Char → Bool
  | [] => part.isEmpty
  | c :: rest => part.isPrefixOf (c :: rest) || contains part rest

/-- A text with every trailing copy of `part` taken away. -/
def dropTrailing (part : List Char) (s : List Char) : List Char :=
  if part ≠ [] ∧ part.isSuffixOf s ∧ s ≠ [] then
    dropTrailing part (s.take (s.length - part.length))
  else s
termination_by s.length
decreasing_by
  rename_i h
  have := List.length_pos_iff.mpr h.1
  have := List.length_pos_iff.mpr h.2.2
  simp only [List.length_take]
  omega

end EntityForge.Text

import EntityForge.Text.Blank

/-!
# Tokens of a field line

A line is split at white space, but brackets and double-quoted strings keep what they hold together.
Two slashes outside both begin a comment that reaches to the end of the line.
-/

namespace EntityForge.Field

open Text

/-- What the characters read so far leave open: how many brackets, and perhaps a string, in which
the last character may have been a backslash that takes the next one with it. -/
inductive Mode where
  | code (depth : Nat)
  | quoted (depth : Nat) (escaped : Bool)
  deriving DecidableEq, Repr

/-- How a character changes what is open. A closing bracket without an opening one changes
nothing. -/
def Mode.step : Mode → Char → Mode
  | .code depth, c =>
    if c = '"' then .quoted depth false
    else if c = '(' ∨ c = '[' then .code (depth + 1)
    else if c = ')' ∨ c = ']' then .code (depth - 1)
    else .code depth
  | .quoted depth true, _ => .quoted depth false
  | .quoted depth false, c =>
    if c = '\\' then .quoted depth true
    else if c = '"' then .code depth
    else .quoted depth false

/-- Whether two slashes begin a text. -/
def startsComment : List Char → Bool
  | '/' :: '/' :: _ => true
  | _ => false

/-- Whether a token ends before the text: nothing is open, and white space or a comment follows. -/
def Mode.splits (mode : Mode) : List Char → Bool
  | [] => true
  | c :: rest => mode = .code 0 && (isBlank c || startsComment (c :: rest))

/-- Reads a token to its end; `mode` is what its beginning has left open. -/
def readToken (mode : Mode) : List Char → List Char × List Char
  | [] => ([], [])
  | c :: rest =>
    if mode.splits (c :: rest) then ([], c :: rest)
    else
      let (token, after) := readToken (mode.step c) rest
      (c :: token, after)

/-- Reading a token leaves no more than there was. -/
theorem length_readToken_le (mode : Mode) (s : List Char) :
    (readToken mode s).2.length ≤ s.length := by
  induction s generalizing mode with
  | nil => simp [readToken]
  | cons c rest ih =>
    simp only [readToken]
    split
    · simp
    · exact Nat.le_succ_of_le (ih _)

/-- The tokens of a line. -/
def tokens (line : List Char) : List (List Char) :=
  match _h : line.dropWhile isBlank with
  | [] => []
  | c :: rest =>
    if startsComment (c :: rest) then []
    else
      let read := readToken ((Mode.code 0).step c) rest
      (c :: read.1) :: tokens read.2
termination_by line.length
decreasing_by
  have hread := length_readToken_le ((Mode.code 0).step c) rest
  have hdrop := (List.dropWhile_sublist isBlank (l := line)).length_le
  rw [_h] at hdrop
  simp only [List.length_cons] at hdrop
  omega

end EntityForge.Field

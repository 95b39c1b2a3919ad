import EntityForge.Field.Basic

/-!
# The body of a model

A body is read line by line. A line holds any number of fields, each a name, a type and attributes;
where this form breaks down, the rest of the line is given up and the line is reported.
-/

namespace EntityForge.Field

open Text

/-- Whether a line, freed of white space at its ends, declares nothing. -/
def isSkipped (line : List Char) : Bool :=
  line.isEmpty || "//".toList.isPrefixOf line || "@@".toList.isPrefixOf line ||
    line == [Char.ofNat 0x7B] || line == [Char.ofNat 0x7D]

/-- Whether a token is an attribute. -/
def isAttribute (token : List Char) : Bool :=
  token.head? == some '@'

/-- A line that could not be read to its end. -/
structure Malformed where
  line : String
  deriving DecidableEq, Repr

/-- The fields that tokens spell, with a report of the line they come from where they do not. -/
def ofTokens (line : List Char) : List (List Char) → List (Except Malformed Field)
  | [] => []
  | [_] => [.error ⟨String.ofList line⟩]
  | name :: type :: rest =>
    if isAttribute name || isAttribute type then [.error ⟨String.ofList line⟩]
    else
      let attributes := (rest.takeWhile isAttribute).map String.ofList
      .ok ⟨String.ofList name, String.ofList type, attributes⟩ ::
        ofTokens line (rest.dropWhile isAttribute)
termination_by tokens => tokens.length
decreasing_by
  have := (List.dropWhile_sublist isAttribute (l := rest)).length_le
  simp only [List.length_cons]
  omega

/-- The fields of one line. -/
def ofLine (line : List Char) : List (Except Malformed Field) :=
  let content := trim line
  if isSkipped content then [] else ofTokens content (tokens content)

/-- The fields of a body and the lines that hold something else, in the order of the body. -/
def entries (body : String) : List (Except Malformed Field) :=
  (lines body.toList).flatMap ofLine

/-- The fields of a body, without regard to lines that hold something else. -/
def ofBody (body : String) : List Field :=
  (entries body).filterMap Except.toOption

/-- The lines of a body that could not be read to their end. -/
def malformedLines (body : String) : List Malformed :=
  (entries body).filterMap fun
    | .ok _ => none
    | .error e => some e

end EntityForge.Field

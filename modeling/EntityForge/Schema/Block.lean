import EntityForge.EntityName
import EntityForge.Schema.Token
import EntityForge.Text.Blank

/-!
# Models of a schema

A model is a block outside all other blocks that is introduced by the word `model` and a name.
-/

namespace EntityForge.Schema

open Text

/-- Where a model stands: its name, and what its braces enclose. -/
structure Block where
  name : Span
  body : Span
  deriving DecidableEq, Repr

/-- The brace that closes a block `depth` levels inside which the tokens begin, and what follows
it. -/
def closing? (depth : Nat) : List Token → Option (Token × List Token)
  | [] => none
  | t :: rest =>
    match t.kind, depth with
    | .opening, _ => closing? (depth + 1) rest
    | .closing, 0 => some (t, rest)
    | .closing, depth + 1 => closing? depth rest
    | _, _ => closing? depth rest

/-- What follows the closing brace of a block is shorter than what follows the opening one. -/
theorem length_of_closing? {depth : Nat} {ts : List Token} {t : Token} {rest : List Token}
    (h : closing? depth ts = some (t, rest)) : rest.length < ts.length := by
  induction ts generalizing depth with
  | nil => simp [closing?] at h
  | cons u ts ih =>
    simp only [closing?] at h
    split at h
    · exact Nat.lt_succ_of_lt (ih h)
    · simp only [Option.some.injEq, Prod.mk.injEq] at h
      simp [h.2]
    · exact Nat.lt_succ_of_lt (ih h)
    · exact Nat.lt_succ_of_lt (ih h)

/-- The block that an opening brace begins after two words, if these make it a model. -/
def Block.ofWords? (previous last : Option Token) (body : Span) : Option Block :=
  match previous, last with
  | some keyword, some name =>
    if keyword.bytes = bytesOf "model" then some ⟨⟨name.start, name.stop⟩, body⟩ else none
  | _, _ => none

/-- The models among tokens outside all blocks; `previous` and `last` are the two words right before
the first token. A block that is never closed hides what follows it. -/
def blocksAfter (previous last : Option Token) : List Token → List Block
  | [] => []
  | t :: rest =>
    match t.kind with
    | .opening =>
      match _h : closing? 0 rest with
      | none => []
      | some (close, after) =>
        (Block.ofWords? previous last ⟨t.stop, close.start⟩).toList ++ blocksAfter none none after
    | .closing => blocksAfter none none rest
    | _ => blocksAfter last (some t) rest
termination_by ts => ts.length
decreasing_by
  · have := length_of_closing? _h
    simp only [List.length_cons]
    omega
  · simp
  · simp

/-- The models of a schema, in its order. -/
def blocks (schema : List Char) : List Block :=
  blocksAfter none none (tokens schema)

/-- A model with its name and the text between its braces. -/
structure Model where
  name : String
  body : String
  deriving DecidableEq, Repr

/-- The model that stands at a place. -/
def Block.model (schema : List Char) (block : Block) : Model :=
  ⟨String.ofList (block.name.slice schema), String.ofList (block.body.slice schema)⟩

/-- The models that a schema declares, in its order. -/
def models (schema : String) : List Model :=
  (blocks schema.toList).map (·.model schema.toList)

/-- The names of the declared models, in the order of the schema. -/
def names (schema : String) : List EntityName :=
  (models schema).map fun m => ⟨m.name⟩

/-- The body of the first model whose name differs at most in case, without the white space at its
ends. -/
def body? (schema : String) (name : String) : Option String :=
  let wanted := lowerCase name.toList
  (models schema).find? (fun m => lowerCase m.name.toList == wanted)
    |>.map fun m => String.ofList (trim m.body.toList)

end EntityForge.Schema

import EntityForge.Field.Body

/-!
# Relations of a model

The models that the fields of a body refer to, each with the fields that refer to it, in the order
in which they first appear.
-/

namespace EntityForge

/-- A model and the fields that refer to it. -/
structure Relation where
  model : String
  fields : List String
  deriving DecidableEq, Repr

/-- Relations to different models, in the order in which these were first seen. -/
structure Relations where
  toList : List Relation
  deriving DecidableEq, Repr

namespace Relations

/-- No relation. -/
def empty : Relations :=
  ⟨[]⟩

/-- Adds a field to the relation with a model, or a new relation at the end of a list. -/
def insertInto (model field : String) : List Relation → List Relation
  | [] => [⟨model, [field]⟩]
  | r :: rest =>
    if r.model = model then { r with fields := r.fields ++ [field] } :: rest
    else r :: insertInto model field rest

/-- Records that a field refers to a model. -/
def insert (relations : Relations) (model field : String) : Relations :=
  ⟨insertInto model field relations.toList⟩

/-- The fields that refer to a model. -/
def get? (relations : Relations) (model : String) : Option (List String) :=
  (relations.toList.find? (·.model = model)).map (·.fields)

/-- The related models, each once. -/
def models (relations : Relations) : List String :=
  relations.toList.map (·.model)

/-- The number of related models. -/
def size (relations : Relations) : Nat :=
  relations.toList.length

/-- Whether there is no relation. -/
def isEmpty (relations : Relations) : Bool :=
  relations.toList.isEmpty

/-- The relations that fields declare. -/
def ofFields (fields : List Field) : Relations :=
  (fields.filter (·.isRelation)).foldl (fun rs f => rs.insert f.elementType f.name) empty

/-- The relations of a body. -/
def ofBody (body : String) : Relations :=
  ofFields (Field.ofBody body)

end Relations

end EntityForge

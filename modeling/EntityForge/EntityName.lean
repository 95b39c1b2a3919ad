import EntityForge.Text.Case

/-!
# Names of entities

Classes, files and members that belong to one entity are all named from one word of the schema.
Everything written for the entity takes its spelling from here, so that no two files can disagree.
-/

namespace EntityForge

/-- The name of an entity, as somebody wrote it. -/
structure EntityName where
  source : String
  deriving DecidableEq, Repr

namespace EntityName

/-- The form that class names are made of: one capital, then small letters. -/
def title (name : EntityName) : String :=
  String.ofList (Text.capitalize name.source.toList)

/-- The form for files, folders and members: small letters only. -/
def slug (name : EntityName) : String :=
  String.ofList (Text.lowerCase name.source.toList)

/-- The class that a new record is checked against. -/
def createDto (name : EntityName) : String :=
  "Create" ++ name.title ++ "Dto"

/-- The class that a change of a record is checked against. -/
def updateDto (name : EntityName) : String :=
  "Update" ++ name.title ++ "Dto"

/-- The class that reaches the stored records. -/
def service (name : EntityName) : String :=
  name.title ++ "Service"

/-- The class that answers requests. -/
def controller (name : EntityName) : String :=
  name.title ++ "Controller"

/-- The class that ties the others together and is listed in the registry. -/
def module (name : EntityName) : String :=
  name.title ++ "Module"

end EntityName

end EntityForge

import EntityForge.Field.Body
import EntityForge.TypeName

/-!
# Declarations of class members

The scalar fields of a model become members of three classes. The two that check input put
decorators above each member; the class of the entity itself has none.
-/

namespace EntityForge

open Text

/-- The class that members are declared in. -/
inductive Purpose where
  | create
  | update
  | entity
  deriving DecidableEq, Repr

/-- Whether a class checks input. -/
def Purpose.isDto : Purpose → Bool
  | .create | .update => true
  | .entity => false

/-- What stands between two declarations of a class. -/
def Purpose.separator (purpose : Purpose) : String :=
  if purpose.isDto then "\n\n" else "\n"

/-- A member of a class: its name and type, whether it may be missing, and the decorators above
it. -/
structure Declaration where
  name : String
  type : String
  optional : Bool
  decorators : List String
  deriving DecidableEq, Repr

namespace Declaration

/-- The decorators of a field in a class that checks input: whether it may be missing, then whether
it has to be a date. -/
def checks (field : Field) : List String :=
  (if field.isOptional then "@IsOptional()" else "@IsNotEmpty()") ::
    (if field.plainType = "DateTime" then ["@IsDate()"] else [])

/-- The member that a field becomes. Its name is put in lower case unless case is to be kept. -/
def ofField (purpose : Purpose) (keepCase : Bool) (field : Field) : Declaration where
  name := if keepCase then field.name else String.ofList (lowerCase field.name.toList)
  type := TypeName.inTypeScript field.plainType
  optional := field.isOptional
  decorators := if purpose.isDto then checks field else []

/-- Whether a field becomes a member: it refers to no model and does not identify the record. -/
def isDeclared (field : Field) : Bool :=
  !field.isAnnotated && !field.isList && !field.isId

/-- The members that the fields of a body become, in their order. -/
def ofBody (purpose : Purpose) (keepCase : Bool) (body : String) : List Declaration :=
  ((Field.ofBody body).filter isDeclared).map (ofField purpose keepCase)

/-- The last line of a declaration. -/
def signature (d : Declaration) : String :=
  d.name ++ (if d.optional then "?" else "") ++ ": " ++ d.type ++ ";"

/-- The lines of a declaration: a decorator each, then the member. -/
def lines (d : Declaration) : List String :=
  (d.decorators ++ [d.signature]).map ("  " ++ ·)

/-- The text of a declaration. -/
def text (d : Declaration) : String :=
  "\n".intercalate d.lines

/-- The members of a class as text. -/
def join (purpose : Purpose) (declarations : List Declaration) : String :=
  purpose.separator.intercalate (declarations.map text)

end Declaration

end EntityForge

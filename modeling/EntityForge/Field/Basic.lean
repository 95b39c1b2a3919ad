import EntityForge.Field.Token
import EntityForge.Text.Case
import EntityForge.Text.Line

/-!
# Fields of a model

A field has a name, a type with its marks, and attributes. What else is said of it is read off these
three.
-/

namespace EntityForge

open Text

/-- A field as it is declared: `?` in its type makes it optional, `[]` a list. -/
structure Field where
  name : String
  type : String
  attributes : List String
  deriving DecidableEq, Repr

namespace Field

/-- Whether the type carries the optional mark. -/
def isOptional (field : Field) : Bool :=
  field.type.toList.contains '?'

/-- Whether the type carries the list mark. -/
def isList (field : Field) : Bool :=
  Text.contains "[]".toList field.type.toList

/-- Whether an attribute says how the field relates to another model. -/
def isAnnotated (field : Field) : Bool :=
  field.attributes.any fun a => "@relation".toList.isPrefixOf a.toList

/-- The type up to its optional mark. -/
def plainType (field : Field) : String :=
  String.ofList (trim ((before? '?' field.type.toList).getD field.type.toList))

/-- The type without its optional and list marks. -/
def elementType (field : Field) : String :=
  String.ofList (dropTrailing "[]".toList field.plainType.toList)

/-- Whether this is the field that identifies a record. -/
def isId (field : Field) : Bool :=
  field.name.toList.map Char.toLower == "id".toList

/-- Whether the field refers to another model. Every list does. -/
def isRelation (field : Field) : Bool :=
  field.isAnnotated || field.isList

/-- The declaration of the field on one line. -/
def declaration (field : Field) : String :=
  " ".intercalate (field.name :: field.type :: field.attributes)

end Field

end EntityForge

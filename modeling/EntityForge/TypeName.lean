/-!
# Types of fields

A schema names the types of its fields; the generated classes name them in TypeScript.
-/

namespace EntityForge.TypeName

/-- The TypeScript type of a field. A name that is no scalar of the schema stands for itself, so
that a reference to another model stays one. -/
def inTypeScript (name : String) : String :=
  match name with
  | "Int" | "Float" | "Decimal" => "number"
  | "Boolean" => "boolean"
  | "String" => "string"
  | "DateTime" => "Date"
  | "Json" => "any"
  | "Bytes" => "Buffer"
  | "BigInt" => "bigint"
  | other => other

end EntityForge.TypeName

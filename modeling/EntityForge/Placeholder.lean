import EntityForge.EntityName
import EntityForge.Text.Line

/-!
# Placeholders of the controller template

The controller of an entity is written from a text of the user's own, in which two placeholders
stand for the name. All other braces belong to that text.
-/

namespace EntityForge.Placeholder

/-- A name between the braces that make it a placeholder. -/
def mark (name : String) : List Char :=
  ['\x7b', '\x7b'] ++ name.toList ++ ['\x7d', '\x7d']

/-- Puts the title of an entity for one placeholder and then its slug for the other. -/
def fill (template : String) (name : EntityName) : String :=
  let titled := Text.replace (mark "name") name.title.toList template.toList
  String.ofList (Text.replace (mark "name-lower") name.slug.toList titled)

end EntityForge.Placeholder

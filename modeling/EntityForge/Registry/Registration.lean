import EntityForge.EntityName
import EntityForge.Registry.ImportsList
import EntityForge.Text.Blank
import EntityForge.Text.Line

/-!
# Registration of an entity

An entity is registered by two edits, each made only where it is missing: a line at the top of the
registry that imports the module of the entity, and that module as the last entry of the imports
list. Nothing is taken out and nothing changes places.
-/

namespace EntityForge.Registry

open Text

/-- The line that imports the module of an entity; `root` is the path from the registry to the
output folder. -/
def importLine (root : String) (name : EntityName) : String :=
  "import \x7b " ++ name.module ++ " \x7d from '" ++
    String.ofList (dropEnd (· = '/') root.toList) ++ "/" ++ name.slug ++ "/" ++ name.slug ++
    ".module';"

/-- Whether a line of the document, freed of white space at its ends, is the given one. -/
def hasLine (document : List Char) (line : List Char) : Bool :=
  (lines document).any fun l => trim l == line

/-- The indentation of an entry where the list shows none. -/
def entryIndent : List Char :=
  "    ".toList

/-- The spaces and tabs that begin the line at a byte, or nothing if the byte is not the first one
of a character. -/
def indentAt? (document : List Char) (position : Nat) : Option (List Char) := do
  let (before, after) ← cut? document position
  let begun := (before.reverse.takeWhile (· != '\n')).reverse
  return (begun ++ after).takeWhile fun c => c = ' ' || c = '\t'

namespace ImportsList

/-- The document with a module as the only entry of an empty list. Comments in the list stay. -/
def fill? (list : ImportsList) (document module : List Char) : Option (List Char) := do
  let (before, _) ← cut? document list.opening.stop
  let inside ← Span.slice? ⟨list.opening.stop, list.closing.start⟩ document
  let (_, after) ← cut? document list.closing.stop
  return before ++ dropEnd isBlank inside ++ '\n' :: entryIndent ++ module ++
    "\n  ]".toList ++ after

/-- The document with a module after the last entry of a list, on a line of its own if the list has
more than one line. -/
def append? (list : ImportsList) (last : Token) (document module : List Char) :
    Option (List Char) := do
  let (before, after) ← cut? document last.stop
  let inside ← Span.slice? ⟨list.opening.start, list.closing.start⟩ document
  let comma := if before.getLast? = some ',' then [] else [',']
  if inside.contains '\n' then
    let found ← indentAt? document (last.stop - 1)
    let indent := if found.isEmpty then entryIndent else found
    return before ++ comma ++ '\n' :: indent ++ module ++ after
  else
    return before ++ comma ++ ' ' :: module ++ after

/-- The document with a module as the last entry of its list. There is none if that means to cut the
document inside a character. -/
def insert? (list : ImportsList) (document module : List Char) : Option (List Char) :=
  match list.entries.getLast? with
  | none => list.fill? document module
  | some last => list.append? last document module

end ImportsList

/-- What registering an entity has made of a registry. -/
structure Registration where
  document : String
  importAdded : Bool
  entryAdded : Bool
  listFound : Bool
  deriving DecidableEq, Repr

/-- Whether anything was added. -/
def Registration.isChange (r : Registration) : Bool :=
  r.importAdded || r.entryAdded

/-- Registers an entity. There is no result if the document would have to be cut inside a
character. -/
def register? (root document : String) (name : EntityName) : Option Registration := do
  let line := (importLine root name).toList
  let importAdded := !hasLine document.toList line
  let imported := if importAdded then line ++ '\n' :: document.toList else document.toList
  let unchanged : Registration := ⟨String.ofList imported, importAdded, false, false⟩
  match ImportsList.find? imported with
  | none => return unchanged
  | some list =>
    if list.hasWord (bytesOf name.module) then return { unchanged with listFound := true }
    else
      let extended ← list.insert? imported name.module.toList
      return ⟨String.ofList extended, importAdded, true, true⟩

end EntityForge.Registry

import EntityForge.Declaration
import EntityForge.Path
import EntityForge.Relation
import EntityForge.Schema.Block
import EntityForge.Settings
import EntityForge.Template.Catalog

/-!
# Artifacts of an entity

The five files that are written for an entity. All of them are rendered from one context, so that
names, paths and imports agree.
-/

namespace EntityForge

/-- An entity: its name and the body of its model. -/
structure Entity where
  name : EntityName
  body : String
  deriving DecidableEq, Repr

/-- A file to be written below the output folder. -/
structure Artifact where
  path : String
  content : String
  description : String
  deriving DecidableEq, Repr

namespace Entity

/-- The entity that a schema declares under a name, in whatever case the name is given. -/
def find? (schema name : String) : Option Entity :=
  (Schema.body? schema name).map fun body => ⟨⟨name⟩, body⟩

/-- An entity with a body that may have white space at its ends. -/
def ofBody (name : EntityName) (body : String) : Entity :=
  ⟨name, String.ofList (Text.trim body.toList)⟩

/-- The relations of the entity. -/
def relations (entity : Entity) : Relations :=
  Relations.ofBody entity.body

/-- The members of a class of the entity, as text. -/
def members (entity : Entity) (settings : Settings) (purpose : Purpose) : String :=
  Declaration.join purpose (Declaration.ofBody purpose settings.keepCase entity.body)

/-- What the names of the templates stand for. -/
def context (entity : Entity) (settings : Settings) : Template.Context :=
  let name := entity.name
  [("model_name", .text name.title),
    ("model_lower", .text name.slug),
    ("create_dto", .text name.createDto),
    ("update_dto", .text name.updateDto),
    ("create_param", .text ("create" ++ name.title ++ "Dto")),
    ("update_param", .text ("update" ++ name.title ++ "Dto")),
    ("service_class", .text name.service),
    ("controller_class", .text name.controller),
    ("module_class", .text name.module),
    ("persistence_class", .text settings.persistence.serviceClass),
    ("persistence_import", .text settings.persistence.serviceImport),
    ("accessor", .text settings.persistence.accessor),
    ("includes", .list (entity.relations.models.map .text)),
    ("create_fields", .text (entity.members settings .create)),
    ("update_fields", .text (entity.members settings .update)),
    ("entity_fields", .text (entity.members settings .entity))]

/-- The path of a file in the folder of the entity. -/
def filePath (entity : Entity) (settings : Settings) (stem : String) : String :=
  Path.join entity.name.slug (stem ++ "." ++ settings.extension)

/-- Renders one file. -/
def artifact (entity : Entity) (settings : Settings) (template : Template)
    (stem description : String) : Except Template.Fault Artifact := do
  let content ← template.render (entity.context settings)
  return ⟨entity.filePath settings stem, content, description ++ " for " ++ entity.name.title⟩

/-- Renders the five files. -/
def artifacts (entity : Entity) (settings : Settings) : Except Template.Fault (List Artifact) := do
  let slug := entity.name.slug
  let createDto ← entity.artifact settings Template.Catalog.createDto
    ("dto/create-" ++ slug ++ ".dto") "Create DTO"
  let updateDto ← entity.artifact settings Template.Catalog.updateDto
    ("dto/update-" ++ slug ++ ".dto") "Update DTO"
  let plain ← entity.artifact settings Template.Catalog.entity
    ("entity/" ++ slug ++ ".entity") "Entity class"
  let service ← entity.artifact settings Template.Catalog.service
    (slug ++ ".service") "Data-access service"
  let module ← entity.artifact settings Template.Catalog.module
    (slug ++ ".module") "Module descriptor"
  return [createDto, updateDto, plain, service, module]

end Entity

end EntityForge

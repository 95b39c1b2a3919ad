import EntityForge.Config.Section
import EntityForge.Run.Options
import EntityForge.Settings

/-!
# Configuration

All that a project can say about a run, with the defaults of a fresh project.
-/

namespace EntityForge

/-- Where the documents of a project are. -/
structure Paths where
  schema : String := "prisma/schema.prisma"
  outputFolder : String := "src/modules"
  registry : String := "src/shared/app.module.ts"
  controllerTemplate : String := "templates/controller.template.txt"
  deriving DecidableEq, Repr

/-- A program of the user's own, and the kinds that it is run for. Without a command it is not
run. -/
structure External where
  command : Option (List String) := none
  kinds : List String := ["module", "service", "controller"]
  deriving DecidableEq, Repr

/-- The configuration of a project. -/
structure Config where
  paths : Paths := {}
  settings : Settings := {}
  importRoot : String := "../modules"
  external : External := {}
  deriving DecidableEq, Repr

namespace Config

/-- The layout of the paths. -/
def pathsLayout : Layout Paths :=
  let schema := Slot.path "schema" fun s p => { p with schema := s }
  let outputFolder := Slot.path "output_dir" fun s p => { p with outputFolder := s }
  let registry := Slot.path "registry" fun s p => { p with registry := s }
  let template := Slot.path "controller_template" fun s p => { p with controllerTemplate := s }
  { name := "struct PathSettings"
    byKey := [template, outputFolder, registry, schema]
    byPosition := [schema, outputFolder, registry, template] }

/-- The layout of the settings of generated files. The persistence class has a layout of its own. -/
def generationLayout : Layout Settings :=
  let extension := Slot.text "extension" fun s g => { g with extension := s }
  let keepCase := Slot.truth "preserve_field_case" fun b g => { g with keepCase := b }
  { name := "struct GenerationConfig"
    byKey := [extension, keepCase]
    byPosition := [extension, keepCase] }

/-- The layout of the persistence class. -/
def persistenceLayout : Layout Persistence :=
  let serviceClass := Slot.text "service_class" fun s p => { p with serviceClass := s }
  let serviceImport := Slot.text "service_import" fun s p => { p with serviceImport := s }
  let accessor := Slot.text "accessor" fun s p => { p with accessor := s }
  { name := "struct PersistenceSettings"
    byKey := [accessor, serviceClass, serviceImport]
    byPosition := [serviceClass, serviceImport, accessor] }

/-- The layout of what concerns the registry: the path from there to the output folder. -/
def registryLayout : Layout String :=
  let importRoot := Slot.text "import_prefix" fun s _ => s
  { name := "struct RegistrySettings"
    byKey := [importRoot]
    byPosition := [importRoot] }

/-- The layout of the user's own program. -/
def externalLayout : Layout External :=
  let command := Slot.texts "command" fun words e => { e with command := some words }
  let kinds := Slot.texts "kinds" fun words e => { e with kinds := words }
  { name := "struct ExternalSettings"
    byKey := [command, kinds]
    byPosition := [command, kinds] }

/-- The sections of a configuration in the order of their keys. -/
def sections : List (Slot Config) :=
  [Slot.record "external" externalLayout (·.external) fun e c => { c with external := e },
    Slot.record "generation" generationLayout (·.settings) fun g c => { c with settings := g },
    Slot.record "paths" pathsLayout (·.paths) fun p c => { c with paths := p },
    Slot.record "persistence" persistenceLayout (·.settings.persistence)
      fun p c => { c with settings := { c.settings with persistence := p } },
    Slot.record "registry" registryLayout (·.importRoot) fun r c => { c with importRoot := r }]

/-- Reads a configuration over the defaults. -/
def ofTable (entries : Table) : Except Mismatch Config :=
  sections.foldlM (fun c slot => slot.fillFrom entries c) {}

/-- The options of a run under this configuration. A command without words is none. -/
def options (config : Config) : Run.Options where
  schema := config.paths.schema
  outputFolder := config.paths.outputFolder
  registry := config.paths.registry
  controllerTemplate := some config.paths.controllerTemplate
  settings := config.settings
  importRoot := config.importRoot
  scaffolder :=
    match config.external.command with
    | some (word :: more) => some ⟨word :: more, config.external.kinds⟩
    | _ => none

end Config

end EntityForge

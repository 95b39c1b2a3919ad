import EntityForge.Artifact
import EntityForge.Placeholder
import EntityForge.Registry.Registration
import EntityForge.Run.Action
import EntityForge.Run.Options

/-!
# The turn of an entity

Everything is rendered before the disk is touched. Then the folder of the entity is emptied, the
external scaffolder runs, controller and artifacts are written, and the registry comes last: it
never names an entity whose files are not there.
-/

namespace EntityForge.Run

/-- Empties the folder of an entity, or makes it. -/
def renewFolder (path : String) : Job Unit := do
  if ← Job.ask (.isPresent path) then
    Job.note .debug "removing previous output" [("path", path)]
    Job.removeTree path
  Job.makeFolders path

/-- Writes a file and makes the folders above it. -/
def writeFile (path text : String) : Job Unit := do
  match Path.parent? path with
  | some folder => Job.makeFolders folder
  | none => pure ()
  Job.writeText path text

/-- Runs the command of the scaffolder for each kind in turn, up to the first one that fails. -/
def scaffold (folder : String) (command : List String) (slug : String) : List String → Job Unit
  | [] => pure ()
  | kind :: rest => do
    let words := command ++ [kind, slug]
    let line := " ".intercalate words
    Job.note .debug "running external scaffolder" [("command", line), ("cwd", folder)]
    match ← Job.ask (.launch ⟨folder, words⟩) with
    | .ok () => scaffold folder command slug rest
    | .error fault => throw (.command line fault)

namespace Options

variable (options : Options)

/-- The folder of an entity. -/
def entityFolder (name : EntityName) : String :=
  Path.join options.outputFolder name.slug

/-- The path of the controller of an entity. -/
def controllerPath (name : EntityName) : String :=
  Path.join (options.entityFolder name) (name.slug ++ ".controller." ++ options.settings.extension)

/-- Runs the scaffolder, if there is one. An empty command is none. -/
def runScaffolder (name : EntityName) : Job Unit :=
  match options.scaffolder with
  | none => pure ()
  | some s =>
    if s.command.isEmpty then pure ()
    else scaffold options.outputFolder s.command name.slug s.kinds

/-- Writes the controller of an entity, if there is a template for it. -/
def writeController (name : EntityName) : Job (Option String) := do
  match options.controllerTemplate with
  | none => return none
  | some template =>
    if ← Job.ask (.isPresent template) then
      let text ← Job.readText template
      let path := options.controllerPath name
      writeFile path (Placeholder.fill text name)
      return some path
    else
      Job.note .warn "controller template not found, skipping controller"
        [("path", template), ("entity", name.source)]
      return none

/-- Writes artifacts and answers with their paths and descriptions. -/
def writeArtifacts : List Artifact → Job (List (String × String))
  | [] => return []
  | artifact :: rest => do
    let path := Path.join options.outputFolder artifact.path
    writeFile path artifact.content
    Job.note .debug ("wrote " ++ artifact.description) [("path", path)]
    let more ← writeArtifacts rest
    return (path, artifact.description) :: more

/-- Registers an entity; the registry is written only if it changes. -/
def updateRegistry (name : EntityName) : Job RegistryChange := do
  let path := options.registry
  let document ← Job.readText path
  match Registry.register? options.importRoot document name with
  | none => throw (.splitCharacter path)
  | some r =>
    if !r.listFound then
      Job.note .warn (Failure.noImportsList.message ++ ", import line only")
        [("path", path), ("entity", name.source)]
    if r.isChange then
      Job.writeText path r.document
      Job.note .debug "registry updated"
        [("path", path), ("import_added", toString r.importAdded),
          ("entry_added", toString r.entryAdded)]
    else
      Job.note .debug "registry already up to date" [("path", path), ("entity", name.source)]
    return ⟨r.importAdded, r.entryAdded, r.listFound⟩

/-- Reports lines that hold something other than fields. -/
def noteMalformed : List Field.Malformed → Job Unit
  | [] => pure ()
  | m :: rest => do
    Job.ask (.note ⟨.fields, .debug, "skipping field line",
      [("error", (Failure.malformedLine m.line).message)]⟩)
    noteMalformed rest

/-- Renders the artifacts of an entity. Each of the three classes with members reports the lines
that it has to leave out. -/
def render (entity : Entity) : Job (List Artifact) := do
  let malformed := Field.malformedLines entity.body
  noteMalformed (malformed ++ malformed ++ malformed)
  match entity.artifacts options.settings with
  | .ok artifacts => return artifacts
  | .error fault => throw (.template fault.template fault)

/-- Generates one entity of a schema. -/
def generate (schema requested : String) : Job Report := do
  match Entity.find? schema requested with
  | none => throw (.modelNotFound requested)
  | some entity =>
    let artifacts ← options.render entity
    let name := entity.name
    Job.note .info "generating artifacts"
      [("entity", name.source), ("relations", toString entity.relations.size)]
    renewFolder (options.entityFolder name)
    options.runScaffolder name
    let controller ← options.writeController name
    let files ← options.writeArtifacts artifacts
    let registry ← options.updateRegistry name
    return ⟨name, files, controller, registry⟩

end Options

end EntityForge.Run

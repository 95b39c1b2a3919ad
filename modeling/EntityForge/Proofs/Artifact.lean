import EntityForge.Proofs.Run.Place
import EntityForge.Proofs.Template.Render
import EntityForge.Template.Catalog
import Mathlib

/-!
# Artifacts that fit together

The artifacts of an entity can always be rendered. Whatever one of them imports from another one is
there: the import leads to one of them, and that one exports the class.
-/

namespace EntityForge

open Disk (placeOf)
open Template (Line Block Part ComesFrom Covers ofLines renderLines)

/-! ### Imports -/

/-- A class that a file imports, and where from. -/
structure Import where
  className : String
  source : String
  deriving DecidableEq, Repr

namespace Import

/-- The line that imports a class. -/
def line (i : Import) : String :=
  "import \x7b " ++ i.className ++ " \x7d from '" ++ i.source ++ "';"

/-- Where an import leads from a file: the path is taken from the folder of the file, and the
extension is put behind it. -/
def target (i : Import) (importer : Location) (extension : String) : Location :=
  placeOf importer.dropLast (i.source ++ "." ++ extension)

end Import

/-- Whether a line is an import. -/
def isImport (line : String) : Bool :=
  "import".toList.isPrefixOf line.toList

namespace Artifact

/-- Whether a file has a line that exports a class. -/
def Exports (a : Artifact) (className : String) : Prop :=
  ∃ before after : String, a.content = before ++ "export class " ++ className ++ " \x7b" ++ after ∧
    (before = "" ∨ ∃ init, before = init ++ "\n")

/-- Whether a file is made of lines of which certain ones, and no others, are imports. -/
def Imports (a : Artifact) (lines : List String) (imports : List Import) : Prop :=
  a.content = String.join (lines.map (· ++ "\n")) ∧
    lines.filter isImport = imports.map Import.line

end Artifact

/-- Whether an import leads from one file to another one, wherever their output folder is, and that
one exports the class. -/
def Import.Resolves (i : Import) (artifacts : List Artifact) (importer : Artifact)
    (extension : String) : Prop :=
  ∃ a ∈ artifacts, (∀ root, i.target (placeOf root importer.path) extension = placeOf root a.path) ∧
    a.Exports i.className

namespace EntityName

variable (name : EntityName)

/-- How the service imports the class that a new record is checked against. -/
def createDtoImport : Import :=
  ⟨name.createDto, "./dto/create-" ++ name.slug ++ ".dto"⟩

/-- How the service imports the class that a change of a record is checked against. -/
def updateDtoImport : Import :=
  ⟨name.updateDto, "./dto/update-" ++ name.slug ++ ".dto"⟩

/-- How the module imports the service. -/
def serviceImport : Import :=
  ⟨name.service, "./" ++ name.slug ++ ".service"⟩

end EntityName

/-! ### The context of an entity -/

namespace Entity

variable (entity : Entity) (settings : Settings)

/-- The names that templates of artifacts can use. -/
def contextNames : List String :=
  ["model_name", "model_lower", "create_dto", "update_dto", "create_param", "update_param",
    "service_class", "controller_class", "module_class", "persistence_class", "persistence_import",
    "accessor", "includes", "create_fields", "update_fields", "entity_fields"]

/-- A context has the same names for every entity. -/
lemma map_fst_context : (entity.context settings).map Prod.fst = contextNames := rfl

/-- All of them stand for something. -/
lemma isSome_lookup {name : String} (mem : name ∈ contextNames) :
    ((entity.context settings).lookup name).isSome := by
  rw [← entity.map_fst_context settings] at mem
  obtain ⟨pair, here, rfl⟩ := List.mem_map.mp mem
  exact List.lookup_isSome_iff.mpr ⟨pair, here, beq_self_eq_true _⟩

/-- The context has what blocks ask for if its names do and they repeat over the relations only. -/
lemma covers_context {blocks : List Block}
    (names : ∀ name ∈ blocks.flatMap Block.names, name ∈ contextNames)
    (lists : ∀ list ∈ (blocks.flatMap Block.parts).flatMap Part.lists, list = "includes") :
    Covers (entity.context settings) blocks := by
  refine ⟨fun name mem => entity.isSome_lookup settings (names name mem), fun list mem => ?_⟩
  rw [lists list mem]
  exact ⟨_, rfl⟩

end Entity

/-! ### Rendered files -/

/-- The text that lines make up. -/
def joined (lines : List String) : String :=
  String.join (lines.map (· ++ "\n"))

/-- Lines that are joined stand behind those before them. -/
lemma joined_append (lines more : List String) :
    joined (lines ++ more) = joined lines ++ joined more := by
  apply String.toList_injective
  simp [joined]

/-- A line that begins with the export of a class exports it. -/
lemma Artifact.exports_of_mem {a : Artifact} {lines : List String} {className rest : String}
    (content : a.content = joined lines)
    (mem : "export class " ++ className ++ " \x7b" ++ rest ∈ lines) : a.Exports className := by
  obtain ⟨front, back, rfl⟩ := List.append_of_mem mem
  refine ⟨joined front, rest ++ "\n" ++ joined back, ?_, ?_⟩
  · rw [content, joined_append]
    apply String.toList_injective
    simp [joined]
  · cases front using List.reverseRecOn with
    | nil => exact .inl rfl
    | append_singleton front last =>
      refine .inr ⟨joined front ++ last, ?_⟩
      rw [joined_append]
      apply String.toList_injective
      simp [joined]

/-- Whether a line of a template does not begin as an import does. -/
def Template.Line.isQuiet : Line → Bool
  | [] => true
  | .text s :: _ => s.toList.head?.any (· ≠ 'i')
  | .value _ :: _ => false

/-- No import comes from lines that do not begin as one. -/
lemma filter_isImport {lines : List Line} {ss : List String} (h : ComesFrom lines ss)
    (quiet : ∀ line ∈ lines, Line.isQuiet line) : ss.filter isImport = [] := by
  rw [List.filter_eq_nil_iff]
  intro s mem imports
  obtain ⟨line, here, begins⟩ := h s mem
  have quiet := quiet line here
  obtain ⟨more, split⟩ := List.isPrefixOf_iff_prefix.mp imports
  cases line with
  | nil =>
    rw [show s = "" from begins] at split
    cases split
  | cons segment line =>
    cases segment with
    | value name => cases quiet
    | text t =>
      obtain ⟨after, begins⟩ : t.toList <+: s.toList := begins
      rw [Line.isQuiet] at quiet
      cases t_eq : t.toList with
      | nil =>
        rw [t_eq] at quiet
        cases quiet
      | cons c rest =>
        rw [t_eq] at quiet begins
        rw [← begins] at split
        have first : 'i' = c := (List.cons.inj split).1
        subst first
        cases quiet

/-- A file is rendered if its template begins with lines that are known and asks for nothing but names
of the context behind them. A class that one of these lines exports is exported, and only these
lines are imports if none of the others begins as one. -/
lemma Entity.exists_artifact (entity : Entity) (settings : Settings) (template : Template)
    (front : List Line) (rest : List Block) {texts : List String} {className after : String}
    (blocks : template.blocks = ofLines front ++ rest)
    (first : renderLines template.name (entity.context settings) 1 front = .ok texts)
    (names : ∀ name ∈ rest.flatMap Block.names, name ∈ contextNames)
    (lists : ∀ list ∈ (rest.flatMap Block.parts).flatMap Part.lists, list = "includes")
    (exports : "export class " ++ (className ++ after) ∈ texts)
    (opens : ∃ more, after = " \x7b" ++ more) (stem description : String) :
    ∃ (a : Artifact) (lines : List String),
      entity.artifact settings template stem description = .ok a ∧
      template.lines (entity.context settings) = .ok lines ∧ a.content = joined lines ∧
      a.Exports className ∧
      ((∀ line ∈ (rest.flatMap Block.parts).flatMap Part.lines, Line.isQuiet line) →
        lines.filter isImport = texts.filter isImport) := by
  obtain ⟨more, lines, render, comes⟩ :=
    Template.exists_lines blocks first (entity.covers_context settings names lists)
  refine ⟨⟨_, joined (texts ++ more), description ++ " for " ++ entity.name.title⟩, texts ++ more,
    by rw [artifact, render]; rfl, lines, rfl, ?_, fun quiet => ?_⟩
  · obtain ⟨inside, rfl⟩ := opens
    rw [← String.append_assoc, ← String.append_assoc] at exports
    exact Artifact.exports_of_mem rfl (List.mem_append_left more exports)
  · rw [List.filter_append, filter_isImport comes quiet, List.append_nil]

namespace Entity

variable (entity : Entity) (settings : Settings)

/-- The class for new records is rendered and exported. -/
lemma exists_createDto (stem description : String) : ∃ a : Artifact,
    entity.artifact settings Template.Catalog.createDto stem description = .ok a ∧
      a.Exports entity.name.createDto := by
  obtain ⟨a, lines, made, -, -, exports, -⟩ := entity.exists_artifact settings
    Template.Catalog.createDto
    [[.text "import \x7b IsNotEmpty, IsOptional, IsDate \x7d from 'class-validator';"], [],
      [.text "export class ", .value "create_dto", .text " \x7b"]]
    (Template.Catalog.createDto.blocks.drop 3) rfl rfl (by decide) (by decide)
    (.tail _ (.tail _ (.head _))) ⟨_, rfl⟩ stem description
  exact ⟨a, made, exports⟩

/-- The class for changes is rendered and exported. -/
lemma exists_updateDto (stem description : String) : ∃ a : Artifact,
    entity.artifact settings Template.Catalog.updateDto stem description = .ok a ∧
      a.Exports entity.name.updateDto := by
  obtain ⟨a, lines, made, -, -, exports, -⟩ := entity.exists_artifact settings
    Template.Catalog.updateDto
    [[.text "import \x7b IsNotEmpty, IsOptional, IsDate \x7d from 'class-validator';"], [],
      [.text "export class ", .value "update_dto", .text " \x7b"]]
    (Template.Catalog.updateDto.blocks.drop 3) rfl rfl (by decide) (by decide)
    (.tail _ (.tail _ (.head _))) ⟨_, rfl⟩ stem description
  exact ⟨a, made, exports⟩

/-- The class of the entity is rendered and exported. -/
lemma exists_plain (stem description : String) : ∃ a : Artifact,
    entity.artifact settings Template.Catalog.entity stem description = .ok a ∧
      a.Exports entity.name.title := by
  obtain ⟨a, lines, made, -, -, exports, -⟩ := entity.exists_artifact settings
    Template.Catalog.entity [[.text "export class ", .value "model_name", .text " \x7b"]]
    (Template.Catalog.entity.blocks.drop 1) rfl rfl (by decide) (by decide) (.head _) ⟨_, rfl⟩
    stem description
  exact ⟨a, made, exports⟩

/-- The imports of the service. -/
def serviceImports : List Import :=
  [⟨"Injectable", "@nestjs/common"⟩,
    ⟨settings.persistence.serviceClass, settings.persistence.serviceImport⟩,
    entity.name.createDtoImport, entity.name.updateDtoImport]

/-- The service is rendered and exported, and imports what its declarations say. -/
lemma exists_service (stem description : String) : ∃ (a : Artifact) (lines : List String),
    entity.artifact settings Template.Catalog.service stem description = .ok a ∧
      a.Exports entity.name.service ∧
      Template.Catalog.service.lines (entity.context settings) = .ok lines ∧
      a.Imports lines (entity.serviceImports settings) := by
  obtain ⟨a, lines, made, rendered, content, exports, imports⟩ :=
    entity.exists_artifact settings Template.Catalog.service
      [[.text "import \x7b Injectable \x7d from '@nestjs/common';"],
        [.text "import \x7b ", .value "persistence_class", .text " \x7d from '",
          .value "persistence_import", .text "';"],
        [.text "import \x7b ", .value "create_dto", .text " \x7d from './dto/create-",
          .value "model_lower", .text ".dto';"],
        [.text "import \x7b ", .value "update_dto", .text " \x7d from './dto/update-",
          .value "model_lower", .text ".dto';"], [],
        [.text "@Injectable()"], [.text "export class ", .value "service_class", .text " \x7b"]]
      (Template.Catalog.service.blocks.drop 7) rfl rfl (by decide) (by decide)
      (.tail _ (.tail _ (.tail _ (.tail _ (.tail _ (.tail _ (.head _))))))) ⟨_, rfl⟩
      stem description
  refine ⟨a, lines, made, exports, rendered, content, ?_⟩
  rw [imports (by decide)]
  simp [isImport, serviceImports, EntityName.createDtoImport, EntityName.updateDtoImport, Import.line, Template.Value.shown, String.ext_iff]

/-- The imports of the module. -/
def moduleImports : List Import :=
  [⟨"Module", "@nestjs/common"⟩,
    ⟨entity.name.controller, "./" ++ entity.name.slug ++ ".controller"⟩,
    entity.name.serviceImport,
    ⟨settings.persistence.serviceClass, settings.persistence.serviceImport⟩]

/-- The module is rendered and exported, and imports what its declarations say. -/
lemma exists_module (stem description : String) : ∃ (a : Artifact) (lines : List String),
    entity.artifact settings Template.Catalog.module stem description = .ok a ∧
      a.Exports entity.name.module ∧
      Template.Catalog.module.lines (entity.context settings) = .ok lines ∧
      a.Imports lines (entity.moduleImports settings) := by
  obtain ⟨a, lines, made, rendered, content, exports, imports⟩ :=
    entity.exists_artifact settings Template.Catalog.module
      [[.text "import \x7b Module \x7d from '@nestjs/common';"],
        [.text "import \x7b ", .value "controller_class", .text " \x7d from './",
          .value "model_lower", .text ".controller';"],
        [.text "import \x7b ", .value "service_class", .text " \x7d from './",
          .value "model_lower", .text ".service';"],
        [.text "import \x7b ", .value "persistence_class", .text " \x7d from '",
          .value "persistence_import", .text "';"], [],
        [.text "@Module(\x7b"],
        [.text "  controllers: [", .value "controller_class", .text "],"],
        [.text "  providers: [", .value "service_class", .text ", ", .value "persistence_class",
          .text "],"],
        [.text "\x7d)"], [.text "export class ", .value "module_class", .text " \x7b\x7d"]]
      [] rfl rfl (by decide) (by decide)
      (.tail _ (.tail _ (.tail _ (.tail _ (.tail _ (.tail _ (.tail _ (.tail _ (.tail _
        (.head _)))))))))) ⟨"\x7d", by decide⟩ stem description
  refine ⟨a, lines, made, exports, rendered, content, ?_⟩
  rw [imports (by decide)]
  simp [isImport, moduleImports, EntityName.serviceImport, Import.line, Template.Value.shown, String.ext_iff]

/-- The five files can be rendered, whatever the body of the model is. -/
lemma exists_artifacts (entity : Entity) (settings : Settings) :
    ∃ (createDto updateDto plain service module : Artifact) (serviceLines moduleLines : List String),
      entity.artifacts settings = .ok [createDto, updateDto, plain, service, module] ∧
      createDto.Exports entity.name.createDto ∧ updateDto.Exports entity.name.updateDto ∧
      service.Exports entity.name.service ∧ module.Exports entity.name.module ∧
      Template.Catalog.service.lines (entity.context settings) = .ok serviceLines ∧
      service.Imports serviceLines (entity.serviceImports settings) ∧
      Template.Catalog.module.lines (entity.context settings) = .ok moduleLines ∧
      module.Imports moduleLines (entity.moduleImports settings) := by
  obtain ⟨createDto, made_create, exports_create⟩ := entity.exists_createDto settings
    ("dto/create-" ++ entity.name.slug ++ ".dto") "Create DTO"
  obtain ⟨updateDto, made_update, exports_update⟩ := entity.exists_updateDto settings
    ("dto/update-" ++ entity.name.slug ++ ".dto") "Update DTO"
  obtain ⟨plain, made_plain, -⟩ := entity.exists_plain settings
    ("entity/" ++ entity.name.slug ++ ".entity") "Entity class"
  obtain ⟨service, serviceLines, made_service, exports_service, service_lines, service_imports⟩ :=
    entity.exists_service settings (entity.name.slug ++ ".service") "Data-access service"
  obtain ⟨module, moduleLines, made_module, exports_module, module_lines, module_imports⟩ :=
    entity.exists_module settings (entity.name.slug ++ ".module") "Module descriptor"
  refine ⟨createDto, updateDto, plain, service, module, serviceLines, moduleLines, ?_,
    exports_create, exports_update, exports_service, exports_module, service_lines,
    service_imports, module_lines, module_imports⟩
  rw [artifacts, made_create, made_update, made_plain, made_service, made_module]
  rfl

end Entity

/-! ### Places of the files -/

namespace Entity

variable {entity : Entity} {settings : Settings} (word : Schema.IsWord entity.name.source)

include word

omit word in
/-- What is put below nothing stays as it is. -/
lemma join_empty (path : String) : Path.join "" path = path := by
  rw [Path.join]
  split_ifs with absolute empty
  · rfl
  · rfl
  · exact absurd rfl empty
  · exact absurd rfl empty

/-- The paths of the artifacts lead down from the slug of the entity. -/
lemma map_path_artifacts {artifacts : List Artifact}
    (rendered : entity.artifacts settings = .ok artifacts) :
    artifacts.map (·.path) =
      (entity.name.artifactPlaces settings.extension).map (Path.below entity.name.slug) := by
  have paths := Run.Options.join_artifacts { outputFolder := "", settings := settings } word rendered
  simp only [join_empty, Run.Options.entityFolder] at paths
  exact paths

/-- The slug of an entity leads right below the root. -/
lemma placeOf_slug (root : Location) : placeOf root entity.name.slug = root ++ [entity.name.slug] := by
  have place := Run.Options.placeOf_entityFolder { outputFolder := "" } word root
  rw [Run.Options.entityFolder, join_empty] at place
  exact place

/-- Where an artifact is. -/
lemma placeOf_below_slug (hext : '/' ∉ settings.extension.toList) {names : List String}
    (mem : names ∈ entity.name.artifactPlaces settings.extension) (root : Location) :
    placeOf root (Path.below entity.name.slug names) = root ++ entity.name.slug :: names := by
  have named := EntityName.isName_of_mem_artifactPlaces word hext names mem
  rw [Disk.placeOf_below root (EntityName.isWord_slug word).1 named, placeOf_slug word,
    List.append_assoc]
  rfl

/-- No two artifacts are in the same place, and all are below the folder of the entity. -/
lemma map_placeOf_artifacts (hext : '/' ∉ settings.extension.toList) {artifacts : List Artifact}
    (rendered : entity.artifacts settings = .ok artifacts) (root : Location) :
    (artifacts.map fun a => placeOf root a.path) =
      (entity.name.artifactPlaces settings.extension).map (root ++ entity.name.slug :: ·) := by
  have places := congrArg (List.map (placeOf root)) (map_path_artifacts word rendered)
  rw [List.map_map, List.map_map] at places
  exact places.trans (List.map_congr_left fun names mem => placeOf_below_slug word hext mem root)

/-- An import from a file right in the folder of the entity leads to the artifact that it names. -/
lemma resolves (hext : '/' ∉ settings.extension.toList) {artifacts : List Artifact}
    {a importer : Artifact} {names : List String} {file : String} {i : Import} (mem : a ∈ artifacts)
    (exports : a.Exports i.className) (path : a.path = Path.below entity.name.slug names)
    (is : names ∈ entity.name.artifactPlaces settings.extension)
    (importer_path : importer.path = Path.below entity.name.slug [file])
    (importer_is : [file] ∈ entity.name.artifactPlaces settings.extension)
    (source : i.source ++ "." ++ settings.extension = Path.below "." names) :
    i.Resolves artifacts importer settings.extension := by
  refine ⟨a, mem, fun root => ?_, exports⟩
  have named := EntityName.isName_of_mem_artifactPlaces word hext names is
  have folder : (root ++ entity.name.slug :: [file]).dropLast = root ++ [entity.name.slug] := by
    rw [List.append_cons, List.dropLast_concat]
  have here : placeOf (root ++ [entity.name.slug]) "." = root ++ [entity.name.slug] := rfl
  rw [Import.target, importer_path, placeOf_below_slug word hext importer_is, folder, source,
    Disk.placeOf_below _ (by decide) named, here, path, placeOf_below_slug word hext is,
    List.append_assoc]
  rfl

/-- Artifacts fit together: all five can be rendered, they have places of their own in the folder of
the entity, and what the service and the module import of them leads to the one that exports it. To
these imports the files add only that of the framework, of the persistence class and, for the module,
of the controller. The line that is put into the registry imports what the module exports. -/
theorem artifacts_fit (hext : '/' ∉ settings.extension.toList) :
    ∃ (createDto updateDto plain service module : Artifact) (serviceLines moduleLines : List String),
      entity.artifacts settings = .ok [createDto, updateDto, plain, service, module] ∧
      (∀ root, ([createDto, updateDto, plain, service, module].map
        fun a => placeOf root a.path).Nodup) ∧
      (∀ a ∈ [createDto, updateDto, plain, service, module], ∃ names, names ≠ [] ∧
        a.path = Path.below entity.name.slug names ∧
          ∀ root, placeOf root a.path = root ++ entity.name.slug :: names) ∧
      Template.Catalog.service.lines (entity.context settings) = .ok serviceLines ∧
      service.Imports serviceLines (entity.serviceImports settings) ∧
      Template.Catalog.module.lines (entity.context settings) = .ok moduleLines ∧
      module.Imports moduleLines (entity.moduleImports settings) ∧
      entity.name.createDtoImport.Resolves [createDto, updateDto, plain, service, module] service
        settings.extension ∧
      entity.name.updateDtoImport.Resolves [createDto, updateDto, plain, service, module] service
        settings.extension ∧
      entity.name.serviceImport.Resolves [createDto, updateDto, plain, service, module] module
        settings.extension ∧
      ∀ importRoot : String, ∃ path : String,
        Registry.importLine importRoot entity.name = Import.line ⟨entity.name.module,
          String.ofList (Text.dropEnd (· = '/') importRoot.toList) ++ "/" ++ path⟩ ∧
        (∀ root, placeOf root (path ++ "." ++ settings.extension) = placeOf root module.path) ∧
        module.Exports entity.name.module := by
  obtain ⟨createDto, updateDto, plain, service, module, serviceLines, moduleLines, rendered,
    exports_create, exports_update, exports_service, exports_module, service_lines,
    service_imports, module_lines, module_imports⟩ := exists_artifacts entity settings
  have paths := map_path_artifacts word rendered
  have places := map_placeOf_artifacts word hext rendered
  have every : ∀ a ∈ [createDto, updateDto, plain, service, module],
      ∃ names ∈ entity.name.artifactPlaces settings.extension,
        a.path = Path.below entity.name.slug names := by
    intro a mem
    have here := List.mem_map_of_mem (f := Artifact.path) mem
    rw [paths] at here
    obtain ⟨names, is, same⟩ := List.mem_map.mp here
    exact ⟨names, is, same.symm⟩
  have nodup := (List.nodup_cons.mp (entity.name.nodup_places settings.extension)).2
  simp only [EntityName.artifactPlaces, List.map_cons, List.map_nil, List.cons.injEq, and_true]
    at paths
  obtain ⟨create_path, update_path, -, service_path, module_path⟩ := paths
  refine ⟨createDto, updateDto, plain, service, module, serviceLines, moduleLines, rendered,
    fun root => ?_, fun a mem => ?_, service_lines, service_imports, module_lines, module_imports,
    ?_, ?_, ?_, fun importRoot => ⟨entity.name.slug ++ "/" ++ entity.name.slug ++ ".module", ?_,
      fun root => ?_, exports_module⟩⟩
  · rw [places]
    refine (List.nodup_map_iff fun names names' same => ?_).mpr nodup
    exact (List.cons.inj (List.append_cancel_left same)).2
  · obtain ⟨names, is, path⟩ := every a mem
    refine ⟨names, ?_, path, fun root => path ▸ placeOf_below_slug word hext is root⟩
    rintro rfl
    simp [EntityName.artifactPlaces] at is
  · refine resolves word hext (.head _) exports_create create_path (.head _) service_path
      (.tail _ (.tail _ (.tail _ (.head _)))) ?_
    simp [EntityName.createDtoImport, Path.below, String.ext_iff]
  · refine resolves word hext (.tail _ (.head _)) exports_update update_path (.tail _ (.head _))
      service_path (.tail _ (.tail _ (.tail _ (.head _)))) ?_
    simp [EntityName.updateDtoImport, Path.below, String.ext_iff]
  · refine resolves word hext (.tail _ (.tail _ (.tail _ (.head _)))) exports_service service_path
      (.tail _ (.tail _ (.tail _ (.head _)))) module_path
      (.tail _ (.tail _ (.tail _ (.tail _ (.head _))))) ?_
    simp [EntityName.serviceImport, Path.below, String.ext_iff]
  · simp [Registry.importLine, Import.line, String.ext_iff]
  · rw [module_path]
    congr 1
    simp [Path.below, String.append_assoc]

omit word in
/-- The five artifacts of a user, of which the service imports the first one. -/
theorem artifacts_fit_user :
    Schema.IsWord "User" ∧ '/' ∉ ({} : Settings).extension.toList ∧
      ∃ createDto updateDto plain service module : Artifact,
        Entity.artifacts ⟨⟨"User"⟩, "id Int"⟩ {} =
          .ok [createDto, updateDto, plain, service, module] ∧
        (EntityName.createDtoImport ⟨"User"⟩).Resolves
          [createDto, updateDto, plain, service, module] service "ts" := by
  have word : Schema.IsWord "User" := by decide +kernel
  have extension : '/' ∉ ({} : Settings).extension.toList := by simp
  obtain ⟨createDto, updateDto, plain, service, module, -, -, rendered, -, -, -, -, -, -, resolves,
    -⟩ := @artifacts_fit ⟨⟨"User"⟩, "id Int"⟩ {} word extension
  exact ⟨word, extension, createDto, updateDto, plain, service, module, rendered, resolves⟩

end Entity

end EntityForge

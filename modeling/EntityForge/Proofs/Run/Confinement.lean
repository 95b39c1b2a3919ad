import EntityForge.Proofs.Run.Action
import EntityForge.Proofs.Run.Place
import Mathlib

/-!
# What a turn can touch

The turn of an entity removes nothing but the folder of the entity, which is right below the output
folder whatever name was asked for, and it writes nothing but files in there and the registry.
-/

namespace EntityForge.Run

open Disk (placeOf)

/-! ### Requests of a turn -/

/-- Whether a request removes nothing but a folder, writes to certain paths only and launches programs
only if it may. -/
def Allows (folder : String) (files : List String) (launches : Prop) : Request → Prop
  | .removeTree path => path = folder
  | .writeText path _ => path ∈ files
  | .launch _ => launches
  | _ => True

section

variable {folder path : String} {files : List String} {launches : Prop} {P : Request → Prop}

/-- A folder is renewed by looking for it, removing it if it is there, and making it. -/
lemma all_renewFolder (notes : ∀ line, P (.note line)) (looks : P (.isPresent folder))
    (removes : P (.removeTree folder)) (makes : P (.makeFolders folder)) :
    (renewFolder folder).All P := by
  have makes : (Job.makeFolders folder).All P := Job.all_makeFolders makes
  apply Job.All.bind (Job.all_ask looks)
  intro found
  cases found with
  | false => exact makes
  | true =>
    apply Job.All.bind (Job.all_note (notes _))
    intro
    have removes : (Job.removeTree folder).All P := Job.all_removeTree removes
    exact removes.bind fun _ => makes

/-- To renew a folder nothing else is removed, and nothing is written. -/
lemma allows_renewFolder : (renewFolder folder).All (Allows folder files launches) :=
  all_renewFolder (fun _ => trivial) trivial rfl trivial

/-- A file is written by writing it, with the folder above it made before. -/
lemma all_writeFile {text : String}
    (makes : ∀ above, Path.parent? path = some above → P (.makeFolders above))
    (writes : P (.writeText path text)) : (writeFile path text).All P := by
  have write : (Job.writeText path text).All P := Job.all_writeText writes
  rw [writeFile]
  cases above : Path.parent? path with
  | none => exact write
  | some parent =>
    apply Job.All.bind (Job.all_makeFolders (makes parent above))
    exact fun _ => write

/-- To write a file nothing is removed, and nothing else is written. -/
lemma allows_writeFile (mem : path ∈ files) (text : String) :
    (writeFile path text).All (Allows folder files launches) :=
  all_writeFile (fun _ _ => trivial) mem

/-- The scaffolder is run by notes and launches. -/
lemma all_scaffold (notes : ∀ line, P (.note line)) (launches : ∀ command, P (.launch command))
    (place : String) (command : List String) (slug : String) (kinds : List String) :
    (scaffold place command slug kinds).All P := by
  induction kinds with
  | nil => exact Job.all_pure ()
  | cons kind rest ih =>
    apply Job.All.bind (Job.all_note (notes _))
    intro
    apply Job.All.bind (Job.all_ask (launches _))
    intro reply
    cases reply with
    | ok => exact ih
    | error fault => exact Job.all_throw _

namespace Options

variable (options : Options) (name : EntityName)

/-- Without a scaffolder nothing is launched. -/
lemma all_runScaffolder (notes : ∀ line, P (.note line))
    (launches : options.scaffolder ≠ none → ∀ command, P (.launch command)) :
    (options.runScaffolder name).All P := by
  rw [runScaffolder]
  cases some : options.scaffolder with
  | none => exact Job.all_pure ()
  | some scaffolder =>
    rw [some] at launches
    simp only
    split_ifs
    · exact Job.all_pure ()
    · exact all_scaffold notes (launches nofun) _ _ _ _

/-- Running the scaffolder neither removes nor writes anything itself. -/
lemma allows_runScaffolder (may : options.scaffolder ≠ none → launches) :
    (options.runScaffolder name).All (Allows folder files launches) :=
  options.all_runScaffolder name (fun _ => trivial) fun some _ => may some

/-- A controller is written after its template was looked for and read. -/
lemma all_writeController (notes : ∀ line, P (.note line))
    (reads : ∀ template ∈ options.controllerTemplate, P (.isPresent template) ∧
      P (.readText template))
    (writes : ∀ text, (writeFile (options.controllerPath name) text).All P) :
    (options.writeController name).All P := by
  rw [writeController]
  cases some : options.controllerTemplate with
  | none => exact Job.all_pure none
  | some template =>
    obtain ⟨looks, reads⟩ := reads template some
    apply Job.All.bind (Job.all_ask looks)
    intro found
    cases found with
    | false =>
      apply Job.All.bind (Job.all_note (notes _))
      exact fun _ => Job.all_pure none
    | true =>
      apply Job.All.bind (Job.all_readText reads)
      intro text
      simp only
      exact (writes _).bind fun _ => Job.all_pure _

/-- To write a controller nothing is removed, and nothing else is written. -/
lemma allows_writeController (mem : options.controllerPath name ∈ files) :
    (options.writeController name).All (Allows folder files launches) :=
  options.all_writeController name (fun _ => trivial) (fun _ _ => ⟨trivial, trivial⟩)
    (allows_writeFile mem)

/-- Artifacts are written one by one, with a note on each. -/
lemma all_writeArtifacts (notes : ∀ line, P (.note line))
    {artifacts : List Artifact} (writes : ∀ a ∈ artifacts,
      (writeFile (Path.join options.outputFolder a.path) a.content).All P) :
    (options.writeArtifacts artifacts).All P := by
  induction artifacts with
  | nil => exact Job.all_pure []
  | cons artifact rest ih =>
    obtain ⟨first, others⟩ := List.forall_mem_cons.mp writes
    apply Job.All.bind first
    intro
    apply Job.All.bind (Job.all_note (notes _))
    intro
    apply Job.All.bind (ih others)
    exact fun _ => Job.all_pure _

/-- To write artifacts nothing is removed, and nothing else is written. -/
lemma allows_writeArtifacts {artifacts : List Artifact}
    (mem : ∀ a ∈ artifacts, Path.join options.outputFolder a.path ∈ files) :
    (options.writeArtifacts artifacts).All (Allows folder files launches) :=
  options.all_writeArtifacts (fun _ => trivial) fun a here => allows_writeFile (mem a here) _

/-- The registry is read, then written or not, with notes on what was done. -/
lemma all_updateRegistry (notes : ∀ line, P (.note line)) (reads : P (.readText options.registry))
    (writes : ∀ text, P (.writeText options.registry text)) :
    (options.updateRegistry name).All P := by
  apply Job.All.bind (Job.all_readText reads)
  intro document
  cases Registry.register? options.importRoot document name with
  | none => exact Job.all_throw _
  | some r =>
    have writes : (Job.writeText options.registry r.document).All P := Job.all_writeText (writes _)
    have ends : (pure ⟨r.importAdded, r.entryAdded, r.listFound⟩ : Job RegistryChange).All P :=
      Job.all_pure _
    have note {level : Log.Level} {message : String} {details : List (String × String)} :
        (Job.note level message details).All P := Job.all_note (notes _)
    simp only
    split_ifs
    · exact note.bind fun _ => writes.bind fun _ => note.bind fun _ => ends
    · exact note.bind fun _ => note.bind fun _ => ends
    · exact writes.bind fun _ => note.bind fun _ => ends
    · exact note.bind fun _ => ends

/-- To register an entity nothing is removed, and nothing but the registry is written. -/
lemma allows_updateRegistry (mem : options.registry ∈ files) :
    (options.updateRegistry name).All (Allows folder files launches) :=
  options.all_updateRegistry name (fun _ => trivial) trivial fun _ => mem

/-- Malformed lines are reported by notes. -/
lemma all_noteMalformed (notes : ∀ line, P (.note line))
    (lines : List Field.Malformed) : (noteMalformed lines).All P := by
  induction lines with
  | nil => exact Job.all_pure ()
  | cons m rest ih => exact (Job.all_ask (notes _)).bind fun _ => ih

/-- Rendering does nothing but take notes. -/
lemma all_render (notes : ∀ line, P (.note line)) (entity : Entity) :
    (options.render entity).All P := by
  apply Job.All.bind (all_noteMalformed notes _)
  intro
  cases entity.artifacts options.settings with
  | ok artifacts => exact Job.all_pure artifacts
  | error fault => exact Job.all_throw _

/-- What is written has been rendered. -/
lemma yields_render (entity : Entity) :
    Action.Yields (fun result => ∀ artifacts, result = .ok artifacts →
      entity.artifacts options.settings = .ok artifacts) (options.render entity).run := by
  apply Action.Yields.bind
  intro result
  cases result with
  | error e => nofun
  | ok =>
    cases entity.artifacts options.settings with
    | ok artifacts =>
      intro _ e
      cases e
      rfl
    | error fault => nofun

end Options

end

/-! ### The turn of an entity -/

namespace Options

variable (options : Options) (name : EntityName)

/-- The paths of the files in the folder of an entity. -/
def filesOf : List String :=
  options.controllerPath name ::
    (name.artifactPlaces options.settings.extension).map (Path.below (options.entityFolder name))

variable {options} in
/-- Artifacts are written to these paths. -/
lemma join_mem_filesOf {entity : Entity} {artifacts : List Artifact}
    (word : Schema.IsWord entity.name.source)
    (rendered : entity.artifacts options.settings = .ok artifacts) :
    ∀ a ∈ artifacts, Path.join options.outputFolder a.path ∈ options.filesOf entity.name := by
  intro a mem
  rw [filesOf, ← options.join_artifacts word rendered]
  exact .tail _ (List.mem_map.mpr ⟨a, mem, rfl⟩)

/-- A turn asks for what its steps ask for. -/
lemma all_generate_of {P : Request → Prop} (notes : ∀ line, P (.note line))
    {schema requested : String} (steps : ∀ entity artifacts,
      Entity.find? schema requested = some entity →
      entity.artifacts options.settings = .ok artifacts →
        (renewFolder (options.entityFolder entity.name)).All P ∧
        (options.runScaffolder entity.name).All P ∧ (options.writeController entity.name).All P ∧
        (options.writeArtifacts artifacts).All P ∧ (options.updateRegistry entity.name).All P) :
    (options.generate schema requested).All P := by
  rw [generate]
  cases found : Entity.find? schema requested with
  | none => exact Job.all_throw _
  | some entity =>
    apply (options.all_render notes entity).bind_of_yields (options.yields_render entity)
    intro artifacts rendered
    obtain ⟨renews, scaffolds, controller, files, registry⟩ := steps entity artifacts found rendered
    apply Job.All.bind (Job.all_note (notes _))
    intro
    apply renews.bind
    intro
    apply scaffolds.bind
    intro
    apply controller.bind
    intro written
    apply files.bind
    intro
    apply registry.bind
    exact fun _ => Job.all_pure _

/-- A turn removes nothing but the folder of its entity and writes nothing but the files in there
and the registry. -/
lemma all_generate (schema requested : String) :
    (options.generate schema requested).All
      (Allows (options.entityFolder ⟨requested⟩) (options.registry :: options.filesOf ⟨requested⟩)
        (options.scaffolder ≠ none)) := by
  apply options.all_generate_of fun _ => trivial
  intro entity artifacts found rendered
  obtain ⟨same, word⟩ := Entity.isWord_of_find? found
  have paths := join_mem_filesOf word rendered
  rw [same] at paths ⊢
  have controller : options.controllerPath ⟨requested⟩ ∈
      options.registry :: options.filesOf ⟨requested⟩ := .tail _ List.mem_cons_self
  have files : ∀ a ∈ artifacts, Path.join options.outputFolder a.path ∈
      options.registry :: options.filesOf ⟨requested⟩ := fun a mem => .tail _ (paths a mem)
  exact ⟨allows_renewFolder, options.allows_runScaffolder _ id,
    options.allows_writeController _ controller, options.allows_writeArtifacts files,
    options.allows_updateRegistry _ List.mem_cons_self⟩

/-! ### Confinement -/

/-- Whether a path leads to a place strictly below the one that another path leads to, wherever one
starts. -/
def LiesBelow (folder path : String) : Prop :=
  ∀ here, ∃ names, names ≠ [] ∧ placeOf here path = placeOf here folder ++ names

/-- A path that goes on from a folder by names leads below it. -/
lemma liesBelow_below {folder : String} (h : Path.EndsNamed folder) {names : List String}
    (ne : names ≠ []) (named : ∀ name ∈ names, Path.IsName name.toList) :
    LiesBelow folder (Path.below folder names) :=
  fun here => ⟨names, ne, Disk.placeOf_below here h.ne_empty named⟩

/-- Whatever name leads to an entity, a turn removes nothing but a folder right below the output
folder and writes nothing but the registry, five artifacts and a controller. These lie in the folder
if the extension has no slash. To a registry the class of the module is one word. -/
theorem generate_confined {schema requested : String} {entity : Entity}
    (found : Entity.find? schema requested = some entity) :
    entity.name.slug ≠ "" ∧ (∀ c ∈ entity.name.slug.toList, Text.IsWordChar c ∧ c ≠ '/' ∧ c ≠ '.') ∧
      Path.isAbsolute entity.name.slug = false ∧
      (∀ here, placeOf here (options.entityFolder entity.name) =
        placeOf here options.outputFolder ++ [entity.name.slug]) ∧
      (∀ (disk disk' : Disk) here,
        disk.removeTree here (options.entityFolder entity.name) = .ok disk' →
          disk' = disk.prune (placeOf here options.outputFolder ++ [entity.name.slug])) ∧
      (∀ artifacts, entity.artifacts options.settings = .ok artifacts → artifacts.length = 5 ∧
        ('/' ∉ options.settings.extension.toList → ∀ a ∈ artifacts,
          LiesBelow (options.entityFolder entity.name) (Path.join options.outputFolder a.path))) ∧
      ('/' ∉ options.settings.extension.toList →
        LiesBelow (options.entityFolder entity.name) (options.controllerPath entity.name)) ∧
      (options.generate schema requested).All (Allows (options.entityFolder entity.name)
        (options.registry :: options.filesOf entity.name) (options.scaffolder ≠ none)) ∧
      Registry.IsIdentifier entity.name.title ∧ Registry.IsIdentifier entity.name.slug ∧
      Registry.tokens entity.name.module.toList =
        [⟨.word, 0, Text.bytesOf entity.name.module⟩] := by
  obtain ⟨same, word⟩ := Entity.isWord_of_find? found
  have slug := EntityName.isWord_slug word
  have folder := options.endsNamed_entityFolder word
  have place (here : Location) := options.placeOf_entityFolder word here
  have title := EntityName.isIdentifier_title word
  refine ⟨slug.1, fun c mem => ⟨slug.2 c mem, ?_, ?_⟩, slug.isAbsolute, place, ?_, ?_, ?_, ?_,
    title, slug.isIdentifier, ?_⟩
  · rintro rfl
    exact slug.not_mem (by decide) mem
  · rintro rfl
    exact slug.not_mem (by decide) mem
  · intro disk disk' here removed
    obtain ⟨-, -, rfl⟩ := Disk.removeTree_eq_ok.mp removed
    rw [place]
  · intro artifacts rendered
    have paths := options.join_artifacts word rendered
    refine ⟨?_, fun hext a mem => ?_⟩
    · have count := congrArg List.length paths
      rwa [List.length_map, List.length_map] at count
    · have here : Path.join options.outputFolder a.path ∈
          artifacts.map fun a => Path.join options.outputFolder a.path :=
        List.mem_map.mpr ⟨a, mem, rfl⟩
      rw [paths] at here
      obtain ⟨names, mem, e⟩ := List.mem_map.mp here
      rw [← e]
      have named := EntityName.isName_of_mem_artifactPlaces word hext names mem
      refine liesBelow_below folder ?_ named
      rintro rfl
      simp [EntityName.artifactPlaces] at mem
  · intro hext
    rw [options.controllerPath_eq word]
    refine liesBelow_below folder (List.cons_ne_nil _ _) ?_
    exact List.forall_mem_singleton.mpr (EntityName.isName_controllerName word hext)
  · rw [same]
    exact options.all_generate schema requested
  · refine Registry.tokens_of_isIdentifier (fun empty => ?_) title.module
    have chars := Registry.toList_module entity.name
    rw [empty] at chars
    simp at chars

/-- The turn of a user is confined to the folder `user`, where its controller is. -/
theorem generate_confined_user :
    '/' ∉ ({} : Options).settings.extension.toList ∧
      Entity.find? "model User \x7b id Int \x7d" "uSER" = some ⟨⟨"uSER"⟩, "id Int"⟩ ∧
      (∀ here, placeOf here (({} : Options).entityFolder ⟨"uSER"⟩) =
        placeOf here "src/modules" ++ ["user"]) ∧
      LiesBelow "src/modules/user" "src/modules/user/user.controller.ts" := by
  have extension : '/' ∉ ({} : Options).settings.extension.toList := by simp
  have found : Entity.find? "model User \x7b id Int \x7d" "uSER" =
      some ⟨⟨"uSER"⟩, "id Int"⟩ := by decide +kernel
  obtain ⟨-, -, -, place, -, -, controller, -⟩ := generate_confined {} found
  have slug : (⟨"uSER"⟩ : EntityName).slug = "user" := by decide +kernel
  have folder : ({} : Options).entityFolder ⟨"uSER"⟩ = "src/modules/user" := by decide +kernel
  have path : ({} : Options).controllerPath ⟨"uSER"⟩ = "src/modules/user/user.controller.ts" := by
    decide +kernel
  refine ⟨extension, found, fun here => slug ▸ place here, ?_⟩
  rw [← folder, ← path]
  exact controller extension

end Options

end EntityForge.Run

import EntityForge.Proofs.Disk.Place
import EntityForge.Proofs.EntityName
import EntityForge.Run.Entity
import Mathlib

/-!
# Where an entity is written

All files of an entity lie below one folder, which is called after the entity and lies right below
the output folder. They are reached from there by names, and no two of them by the same ones.
-/

namespace EntityForge

open Disk (placeOf wayOf trailOf)

/-! ### Names of files -/

namespace EntityName

variable (name : EntityName) (extension : String)

/-- The names that lead to the artifacts from the folder of the entity. -/
def artifactPlaces : List (List String) :=
  [["dto", "create-" ++ name.slug ++ ".dto" ++ "." ++ extension],
    ["dto", "update-" ++ name.slug ++ ".dto" ++ "." ++ extension],
    ["entity", name.slug ++ ".entity" ++ "." ++ extension],
    [name.slug ++ ".service" ++ "." ++ extension],
    [name.slug ++ ".module" ++ "." ++ extension]]

/-- The name of the controller in the folder of the entity. -/
def controllerName : String :=
  name.slug ++ ".controller." ++ extension

variable {name extension}

/-- A text that begins with a word and has no slashes is a name. -/
lemma isName_append {word rest : String} (h : Schema.IsWord word) (slash : '/' ∉ rest.toList) :
    Path.IsName (word ++ rest).toList := by
  obtain ⟨c, more, split, inside⟩ := h.exists_cons
  refine @Path.isName_of_cons _ (more ++ rest.toList) c ?_ ?_ ?_
  · rw [String.toList_append, split]
    rfl
  · rintro rfl
    exact absurd inside (by decide)
  · rw [String.toList_append, List.mem_append]
    exact fun mem => mem.elim (h.not_mem (by decide)) slash

variable (h : Schema.IsWord name.source) (hext : '/' ∉ extension.toList)

include h hext

/-- The file of a controller has a proper name. -/
lemma isName_controllerName : Path.IsName (name.controllerName extension).toList := by
  rw [controllerName, String.append_assoc]
  refine isName_append (isWord_slug h) ?_
  rw [String.toList_append, List.mem_append]
  exact fun mem => mem.elim (by simp) hext

/-- Artifacts are reached by names. -/
lemma isName_of_mem_artifactPlaces : ∀ names ∈ name.artifactPlaces extension, ∀ part ∈ names,
    Path.IsName part.toList := by
  have dto : Path.IsName "dto".toList := Schema.IsWord.isName (by decide +kernel)
  have entity : Path.IsName "entity".toList := Schema.IsWord.isName (by decide +kernel)
  have slug : '/' ∉ name.slug.toList := (isWord_slug h).not_mem (by decide)
  have prefixed {word : String} (hword : Schema.IsWord word) :
      Path.IsName (word ++ "-" ++ name.slug ++ ".dto" ++ "." ++ extension).toList := by
    simp only [String.append_assoc]
    refine isName_append hword ?_
    simp [slug, hext]
  have suffixed {rest : String} (hrest : '/' ∉ rest.toList) :
      Path.IsName (name.slug ++ rest ++ "." ++ extension).toList := by
    simp only [String.append_assoc]
    refine isName_append (isWord_slug h) ?_
    simp [hrest, hext]
  simp only [artifactPlaces, List.forall_mem_cons]
  refine ⟨⟨dto, ?_, List.forall_mem_nil _⟩, ⟨dto, ?_, List.forall_mem_nil _⟩,
    ⟨entity, suffixed (by simp), List.forall_mem_nil _⟩, ⟨suffixed (by simp), List.forall_mem_nil _⟩,
    ⟨suffixed (by simp), List.forall_mem_nil _⟩, List.forall_mem_nil _⟩
  · exact @prefixed "create" (by decide +kernel)
  · exact @prefixed "update" (by decide +kernel)

omit h hext in
/-- No two artifacts are reached by the same names, and none by that of the controller. -/
lemma nodup_places (name : EntityName) (extension : String) :
    ([name.controllerName extension] :: name.artifactPlaces extension).Nodup := by
  simp [artifactPlaces, controllerName, String.ext_iff]

end EntityName

/-! ### The folder of an entity -/

namespace Run.Options

variable (options : Options) {name : EntityName} (h : Schema.IsWord name.source)

include h

/-- The path of the folder of an entity ends with a name. -/
lemma endsNamed_entityFolder : Path.EndsNamed (options.entityFolder name) := by
  have slug := EntityName.isWord_slug h
  obtain ⟨ps, split, -⟩ := Path.exists_parts_lead options.outputFolder
  refine ⟨ps, name.slug.toList, ?_, slug.isName.1⟩
  rw [entityFolder, Path.toList_join slug.isAbsolute, split,
    Path.parts_of_not_mem slug.isName.2.2]

/-- The folder of an entity is right below the output folder. -/
lemma placeOf_entityFolder (here : Location) :
    placeOf here (options.entityFolder name) = placeOf here options.outputFolder ++ [name.slug] := by
  have slug := EntityName.isWord_slug h
  rw [entityFolder, Disk.placeOf_join here slug.isAbsolute,
    Path.parts_of_not_mem slug.isName.2.2, Disk.follow_cons, Disk.enter_name slug.isName]
  rfl

/-- The folder of an entity is not the root. -/
lemma placeOf_entityFolder_ne_nil (here : Location) :
    placeOf here (options.entityFolder name) ≠ [] := by
  rw [options.placeOf_entityFolder h]
  exact List.concat_ne_nil _ _

/-- To the folder of an entity one comes through the output folder. -/
lemma mem_wayOf_entityFolder {here place : Location} :
    place ∈ wayOf here (options.entityFolder name) ↔ place ∈ trailOf here options.outputFolder := by
  have slug := EntityName.isWord_slug h
  rw [Disk.mem_trailOf, entityFolder, Disk.mem_wayOf_join here slug.isAbsolute,
    Path.parts_of_not_mem slug.isName.2.2]
  exact or_congr_right List.mem_singleton

/-- The trail to the folder of an entity is that to the output folder, and the folder itself. -/
lemma mem_trailOf_entityFolder {here place : Location} :
    place ∈ trailOf here (options.entityFolder name) ↔
      place ∈ trailOf here options.outputFolder ∨
        place = placeOf here (options.entityFolder name) := by
  rw [Disk.mem_trailOf, options.mem_wayOf_entityFolder h]

/-- What is put below the slug of an entity lies in its folder. -/
lemma join_slug {path : String} (relative : Path.isAbsolute path = false) :
    Path.join options.outputFolder (Path.join name.slug path) =
      options.entityFolder name ++ "/" ++ path := by
  have slug := EntityName.isWord_slug h
  obtain ⟨c, last, slash⟩ := slug.getLast?
  rw [Path.join_eq relative last slash, String.append_assoc,
    Path.join_append slug.isAbsolute slug.1, ← String.append_assoc]
  rfl

/-- The controller is written where its name leads. -/
lemma controllerPath_eq : options.controllerPath name =
    Path.below (options.entityFolder name) [name.controllerName options.settings.extension] := by
  have slug := EntityName.isWord_slug h
  have relative : Path.isAbsolute (name.controllerName options.settings.extension) = false := by
    rw [EntityName.controllerName, String.append_assoc, Path.isAbsolute_append slug.1]
    exact slug.isAbsolute
  obtain ⟨c, last, slash⟩ := slug.getLast?
  have folder : (options.entityFolder name).toList.getLast? = some c := by
    rw [entityFolder, Path.toList_join slug.isAbsolute, List.getLast?_append, last]
    rfl
  exact Path.join_eq relative folder slash

end Run.Options

/-! ### Artifacts -/

/-- Artifacts that are rendered together have been rendered one by one. -/
lemma Entity.exists_of_artifacts {entity : Entity} {settings : Settings} {artifacts : List Artifact}
    (rendered : entity.artifacts settings = .ok artifacts) :
    ∃ createDto updateDto plain service module : Artifact,
      artifacts = [createDto, updateDto, plain, service, module] ∧
      entity.artifact settings Template.Catalog.createDto
        ("dto/create-" ++ entity.name.slug ++ ".dto") "Create DTO" = .ok createDto ∧
      entity.artifact settings Template.Catalog.updateDto
        ("dto/update-" ++ entity.name.slug ++ ".dto") "Update DTO" = .ok updateDto ∧
      entity.artifact settings Template.Catalog.entity
        ("entity/" ++ entity.name.slug ++ ".entity") "Entity class" = .ok plain ∧
      entity.artifact settings Template.Catalog.service
        (entity.name.slug ++ ".service") "Data-access service" = .ok service ∧
      entity.artifact settings Template.Catalog.module
        (entity.name.slug ++ ".module") "Module descriptor" = .ok module := by
  obtain ⟨createDto, createDto_eq, rendered⟩ := Disk.bind_eq_ok.mp rendered
  obtain ⟨updateDto, updateDto_eq, rendered⟩ := Disk.bind_eq_ok.mp rendered
  obtain ⟨plain, plain_eq, rendered⟩ := Disk.bind_eq_ok.mp rendered
  obtain ⟨service, service_eq, rendered⟩ := Disk.bind_eq_ok.mp rendered
  obtain ⟨module, module_eq, rendered⟩ := Disk.bind_eq_ok.mp rendered
  cases rendered
  exact ⟨createDto, updateDto, plain, service, module, rfl, createDto_eq, updateDto_eq, plain_eq,
    service_eq, module_eq⟩

/-- The artifacts are written where their names lead. -/
lemma Run.Options.join_artifacts (options : Options) {entity : Entity}
    (h : Schema.IsWord entity.name.source) {artifacts : List Artifact}
    (rendered : entity.artifacts options.settings = .ok artifacts) :
    artifacts.map (fun a => Path.join options.outputFolder a.path) =
      (entity.name.artifactPlaces options.settings.extension).map
        (Path.below (options.entityFolder entity.name)) := by
  have written {template : Template} {stem description : String} {a : Artifact}
      (made : entity.artifact options.settings template stem description = .ok a)
      (relative : Path.isAbsolute (stem ++ "." ++ options.settings.extension) = false) :
      Path.join options.outputFolder a.path =
        options.entityFolder entity.name ++ "/" ++ (stem ++ "." ++ options.settings.extension) := by
    obtain ⟨content, -, made⟩ := Disk.bind_eq_ok.mp made
    cases made
    exact options.join_slug h relative
  have relative {first : String} (ne : first ≠ "") (h : Path.isAbsolute first = false)
      (rest : String) : Path.isAbsolute (first ++ rest) = false :=
    (Path.isAbsolute_append ne rest).trans h
  have slug := relative (EntityName.isWord_slug h).1 (EntityName.isWord_slug h).isAbsolute
  obtain ⟨createDto, updateDto, plain, service, module, rfl, createDto_eq, updateDto_eq, plain_eq,
    service_eq, module_eq⟩ := Entity.exists_of_artifacts rendered
  have create : "dto/create-" = "dto" ++ "/" ++ "create-" := rfl
  have update : "dto/update-" = "dto" ++ "/" ++ "update-" := rfl
  have folder : "entity/" = "entity" ++ "/" := rfl
  have createDto_at := written createDto_eq (by
    rw [String.append_assoc, String.append_assoc, String.append_assoc]
    exact @relative "dto/create-" (by decide) (by decide +kernel) _)
  have updateDto_at := written updateDto_eq (by
    rw [String.append_assoc, String.append_assoc, String.append_assoc]
    exact @relative "dto/update-" (by decide) (by decide +kernel) _)
  have plain_at := written plain_eq (by
    rw [String.append_assoc, String.append_assoc, String.append_assoc]
    exact @relative "entity/" (by decide) (by decide +kernel) _)
  have service_at := written service_eq (by
    rw [String.append_assoc, String.append_assoc]
    exact slug _)
  have module_at := written module_eq (by
    rw [String.append_assoc, String.append_assoc]
    exact slug _)
  simp only [List.map_cons, List.map_nil, createDto_at, updateDto_at, plain_at, service_at,
    module_at, EntityName.artifactPlaces, Path.below, List.foldl_cons, List.foldl_nil, create,
    update, folder, String.append_assoc]

section

variable (options : Run.Options) {entity : Entity} (h : Schema.IsWord entity.name.source)
  {artifacts : List Artifact} (rendered : entity.artifacts options.settings = .ok artifacts)
  (hext : '/' ∉ options.settings.extension.toList) (here : Location)

include h rendered hext

/-- Where the artifacts are, in the folder of the entity. -/
lemma Run.Options.placeOf_artifacts :
    artifacts.map (fun a => Disk.placeOf here (Path.join options.outputFolder a.path)) =
      (entity.name.artifactPlaces options.settings.extension).map
        (Disk.placeOf here (options.entityFolder entity.name) ++ ·) := by
  have paths := congrArg (List.map (Disk.placeOf here)) (options.join_artifacts h rendered)
  rw [List.map_map, List.map_map] at paths
  refine paths.trans (List.map_congr_left fun names mem => ?_)
  exact Disk.placeOf_below here (options.endsNamed_entityFolder h).ne_empty
    (EntityName.isName_of_mem_artifactPlaces h hext names mem)

/-- No two artifacts are in one place. -/
lemma Run.Options.nodup_placeOf_artifacts : (artifacts.map fun a =>
    Disk.placeOf here (Path.join options.outputFolder a.path)).Nodup := by
  rw [options.placeOf_artifacts h rendered hext here]
  refine (List.nodup_map_iff (List.append_right_injective _)).mpr ?_
  exact (List.nodup_cons.mp (EntityName.nodup_places _ _)).2

end

end EntityForge

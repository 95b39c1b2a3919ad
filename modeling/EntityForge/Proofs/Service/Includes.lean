import EntityForge.Proofs.Field.Declaration
import EntityForge.Proofs.Relation
import EntityForge.Proofs.Service.Query
import EntityForge.Proofs.Template.Agreement
import Mathlib

/-!
# Models that the service includes

The service finds records by two queries. If the model refers to others, both include all of these,
each once and in the order in which they come up in the body; if not, they include nothing. Nothing
else in the service depends on the body, and nothing in the module does.
-/

namespace EntityForge

open Template (Line Block Part Agree callLine linesOf method ofLines renderLines renderBlocks)
open Text (IsWhole)

/-! ### The lines of the service -/

/-- The template of the service has the two methods among other lines. -/
lemma service_blocks : Template.Catalog.service.blocks =
    ofLines (linesOf (Template.Catalog.service.blocks.take 13)) ++
      (method "  findAll() \x7b" (callLine ".findMany();") [callLine ".findMany(\x7b"] ++
        (ofLines [[]] ++
          (method "  findOne(id: number) \x7b"
              (callLine ".findUnique(\x7b where: \x7b id: id \x7d \x7d);")
              [callLine ".findUnique(\x7b", [.text "      where: \x7b id: id \x7d,"]] ++
            ofLines (linesOf (Template.Catalog.service.blocks.drop 20))))) := rfl

/-- Whether what is said of the persistence class has no line feeds. -/
structure Persistence.IsOneLine (persistence : Persistence) : Prop where
  serviceClass : '\n' ∉ persistence.serviceClass.toList
  serviceImport : '\n' ∉ persistence.serviceImport.toList
  accessor : '\n' ∉ persistence.accessor.toList

namespace EntityName

variable (name : EntityName) (settings : Settings)

/-- What stands for the stored records of an entity. -/
def records : String :=
  settings.persistence.accessor ++ "." ++ name.slug

/-- The line that calls an operation on the stored records. -/
def call (operation : String) : String :=
  "    return this." ++ (name.records settings ++ operation)

/-- The lines of the method that finds all records. -/
def findAllLines (models : List String) : List String :=
  queryLines (name.call settings ".findMany();") [name.call settings ".findMany(\x7b"] models

/-- The lines of the method that finds one record. -/
def findOneLines (models : List String) : List String :=
  queryLines (name.call settings ".findUnique(\x7b where: \x7b id: id \x7d \x7d);")
    [name.call settings ".findUnique(\x7b", "      where: \x7b id: id \x7d,"] models

end EntityName

namespace Entity

/-- The names of the context that stand for something that does not depend on the body. -/
def fixedNames : List String :=
  contextNames.take 12

section

variable {entity : Entity} {settings : Settings} (word : Schema.IsWord entity.name.source)
  (oneLine : settings.persistence.IsOneLine)

/-- A rendered file is made of the lines that its template becomes. -/
lemma content_of_artifact {template : Template} {stem description : String} {a : Artifact}
    {lines : List String}
    (made : entity.artifact settings template stem description = .ok a)
    (rendered : template.lines (entity.context settings) = .ok lines) :
    a.content = joined lines := by
  rw [artifact, Template.render, rendered] at made
  cases made
  rfl

/-- The call of an operation is addressed by the accessor and the slug. -/
lemma render_callLine (template operation : String) (number : Nat) :
    Line.render template (entity.context settings) number (callLine operation) =
      .ok (entity.name.call settings operation) := by
  have accessor : (entity.context settings).lookup "accessor" =
      some (.text settings.persistence.accessor) := rfl
  have slug : (entity.context settings).lookup "model_lower" = some (.text entity.name.slug) := rfl
  rw [callLine, Line.render, Line.render, Template.valueOf, accessor, Line.render, Line.render,
    Template.valueOf, slug, Line.render, Line.render]
  change Except.ok ("    return this." ++ (settings.persistence.accessor ++
    ("." ++ (entity.name.slug ++ (operation ++ ""))))) =
    .ok ("    return this." ++
      (settings.persistence.accessor ++ "." ++ entity.name.slug ++ operation))
  simp only [String.append_empty, String.append_assoc]

/-- What the method that finds all records becomes. -/
lemma render_findAll (template : String) (number : Nat) :
    renderBlocks template (entity.context settings) number
      (method "  findAll() \x7b" (callLine ".findMany();") [callLine ".findMany(\x7b"]) =
        .ok ("  findAll() \x7b" ::
          (entity.name.findAllLines settings entity.relations.models ++ ["  \x7d"])) := by
  refine Template.render_method rfl (render_callLine template _) (fun n => ?_) _ number
  rw [renderLines, render_callLine]
  rfl

/-- What the method that finds one record becomes. -/
lemma render_findOne (template : String) (number : Nat) :
    renderBlocks template (entity.context settings) number
      (method "  findOne(id: number) \x7b"
        (callLine ".findUnique(\x7b where: \x7b id: id \x7d \x7d);")
        [callLine ".findUnique(\x7b", [.text "      where: \x7b id: id \x7d,"]]) =
          .ok ("  findOne(id: number) \x7b" ::
            (entity.name.findOneLines settings entity.relations.models ++ ["  \x7d"])) := by
  refine Template.render_method rfl (render_callLine template _) (fun n => ?_) _ number
  rw [renderLines, render_callLine]
  rfl

include word oneLine

/-- What does not depend on the body has no line feeds. -/
lemma not_mem_of_lookup {name : String} (fixed : name ∈ fixedNames) {v : Template.Value}
    (found : (entity.context settings).lookup name = some v) : '\n' ∉ v.shown.toList := by
  have slug : '\n' ∉ entity.name.slug.toList := (EntityName.isWord_slug word).not_mem (by decide)
  have title : '\n' ∉ entity.name.title.toList :=
    Text.not_mem_of_isWordChar (EntityName.forall_isWordChar_title word) (by decide)
  have values : ∀ entry ∈ (entity.context settings).take 12, '\n' ∉ entry.2.shown.toList := by
    simp [context, Template.Value.shown, EntityName.createDto, EntityName.updateDto,
      EntityName.service, EntityName.controller, EntityName.module, slug, title,
      oneLine.serviceClass, oneLine.serviceImport, oneLine.accessor]
  have entry : (entity.context settings).take 12 =
      ((entity.context settings).take 12).take 12 := by rw [List.take_take, Nat.min_self]
  rw [Template.lookup_eq_of_take_eq entry fixed] at found
  obtain ⟨front, back, split, -⟩ := List.lookup_eq_some_iff.mp found
  exact values (name, v) (split ▸ List.mem_append_right _ List.mem_cons_self)

/-- A line that calls an operation stands in the body of a method. -/
lemma isInner_call {operation : String} (closes : (callLine operation).closes) :
    IsInner (entity.name.call settings operation) := by
  have first : "    return this.".toList <+: (entity.name.call settings operation).toList :=
    ⟨_, (String.toList_append ..).symm⟩
  have clean : ∀ name ∈ Line.names (callLine operation), ∀ v,
      (entity.context settings).lookup name = some v → '\n' ∉ v.shown.toList := by
    have fixed : ∀ name ∈ ["accessor", "model_lower"], name ∈ fixedNames := by decide
    exact fun name mem v => not_mem_of_lookup word oneLine (fixed name mem)
  constructor
  case indented => exact .trans (by decide) first
  case other =>
    intro same
    rw [same] at first
    exact absurd first (by decide)
  case whole =>
    exact (Line.isWhole_of_render closes clean (render_callLine "service" operation 1)).1

/-- The methods have the bodies of queries. -/
lemma isQuery_findLines {models : List String} (clean : ∀ model ∈ models, '\n' ∉ model.toList) :
    IsQuery models (entity.name.findAllLines settings models) ∧
      IsQuery models (entity.name.findOneLines settings models) := by
  have condition : IsInner "      where: \x7b id: id \x7d," := ⟨by decide, by decide, by decide⟩
  constructor
  · exact isQuery_queryLines (isInner_call word oneLine (by decide))
      (List.forall_mem_singleton.mpr (isInner_call word oneLine (by decide))) clean
  · exact isQuery_queryLines (isInner_call word oneLine (by decide))
      (List.forall_mem_cons.mpr ⟨isInner_call word oneLine (by decide),
        List.forall_mem_singleton.mpr condition⟩) clean

/-- The service is made of the two methods and of lines around them, none of which begins a method or a
clause that includes models. -/
lemma exists_service_lines : ∃ front rest : List String,
    Template.Catalog.service.lines (entity.context settings) =
      .ok (withQueries front (entity.name.findAllLines settings entity.relations.models)
        (entity.name.findOneLines settings entity.relations.models) rest) ∧
    (∀ line ∈ ["  findAll() \x7b", "  findOne(id: number) \x7b", "      include: \x7b"],
      line ∉ front) ∧
    "      include: \x7b" ∉ rest ∧ ∀ line ∈ front ++ rest, IsWhole line.toList := by
  have fixed : ∀ name ∈ (linesOf (Template.Catalog.service.blocks.take 13) ++
      linesOf (Template.Catalog.service.blocks.drop 20)).flatMap Line.names,
      name ∈ fixedNames := by decide
  rw [List.flatMap_append, List.forall_mem_append] at fixed
  have known (name : String) (mem : name ∈ fixedNames) :=
    entity.isSome_lookup settings (List.mem_of_mem_take mem)
  obtain ⟨front, first, fromFront⟩ := Template.exists_renderLines "service"
    (fun name mem => known name (fixed.1 name mem)) 1
  -- The lines behind the methods begin on line 42 of the template.
  obtain ⟨rest, last, fromRest⟩ := Template.exists_renderLines "service"
    (fun name mem => known name (fixed.2 name mem)) 42
  refine ⟨front, rest, ?_, ?_, fromRest.not_mem (by decide), ?_⟩
  · have blank : renderBlocks "service" (entity.context settings) 27 (ofLines [[]]) = .ok [""] := rfl
    rw [← Template.renderBlocks_ofLines] at first last
    have behind := Template.renderBlocks_append "service" blank
      (Template.renderBlocks_append "service" (render_findOne "service" 28) last)
    have all := Template.renderBlocks_append "service" first
      (Template.renderBlocks_append "service" (render_findAll "service" 14) behind)
    rw [Template.lines, service_blocks]
    refine all.trans ?_
    simp only [withQueries, List.cons_append, List.append_assoc, List.nil_append]
  · simp only [List.forall_mem_cons]
    exact ⟨fromFront.not_mem (by decide), fromFront.not_mem (by decide),
      fromFront.not_mem (by decide), List.forall_mem_nil _⟩
  · refine List.forall_mem_append.mpr ⟨?_, ?_⟩
    · exact Template.isWhole_of_mem_renderLines (by decide)
        (fun name mem v => not_mem_of_lookup word oneLine (fixed.1 name mem)) first
    · exact Template.isWhole_of_mem_renderLines (by decide)
        (fun name mem v => not_mem_of_lookup word oneLine (fixed.2 name mem)) last

/-- The queries of a rendered service. -/
lemma service_queries (clean : ∀ model ∈ entity.relations.models, '\n' ∉ model.toList)
    {stem description : String} {service : Artifact}
    (made : entity.artifact settings Template.Catalog.service stem description = .ok service) :
    service.lines.count "      include: \x7b" =
      (if entity.relations.models = [] then 0 else 2) ∧
    methodLines "  findAll() \x7b" service.lines =
      entity.name.findAllLines settings entity.relations.models ∧
    methodLines "  findOne(id: number) \x7b" service.lines =
      entity.name.findOneLines settings entity.relations.models := by
  obtain ⟨front, rest, rendered, notFront, notRest, whole⟩ :=
    exists_service_lines word oneLine
  simp only [List.forall_mem_cons] at notFront
  obtain ⟨notAll, notOne, notFront, -⟩ := notFront
  obtain ⟨isAll, isOne⟩ := isQuery_findLines word oneLine clean
  rw [Artifact.lines_eq (content_of_artifact made rendered)
    (isWhole_of_mem_withQueries isAll isOne whole)]
  exact ⟨count_withQueries isAll isOne notFront notRest,
    methodLines_withQueries isAll isOne notAll notOne⟩

end

/-! ### What the files depend on -/

section

variable {entity entity' : Entity} (settings : Settings)

/-- Entities of one name with the same models have the same context up to the members. -/
lemma take_context (name : entity.name = entity'.name)
    (models : entity.relations.models = entity'.relations.models) :
    (entity.context settings).take 13 = (entity'.context settings).take 13 := by
  simp only [context, name, models]
  rfl

/-- Without the models they still agree on the names that do not depend on the body. -/
lemma take_context_of_name (name : entity.name = entity'.name) :
    (entity.context settings).take 12 = (entity'.context settings).take 12 := by
  simp only [context, name]
  rfl

/-- Contexts agree on what blocks ask for if it is named in a part that is the same. -/
lemma agree_context {n : Nat}
    (same : (entity.context settings).take n = (entity'.context settings).take n)
    {blocks : List Block}
    (names : ∀ name ∈ blocks.flatMap Block.names, name ∈ contextNames.take n)
    (lists : ∀ list ∈ (blocks.flatMap Block.parts).flatMap Part.lists,
      list ∈ contextNames.take n) :
    Agree (entity.context settings) (entity'.context settings) blocks := by
  rw [← entity.map_fst_context settings, ← List.map_take] at names lists
  exact .of_take_eq same names lists

/-- Entities of one name have the same file if its template becomes the same. -/
lemma artifact_congr (name : entity.name = entity'.name) {template : Template}
    (render : template.render (entity.context settings) =
      template.render (entity'.context settings)) (stem description : String) :
    entity.artifact settings template stem description =
      entity'.artifact settings template stem description := by
  rw [artifact, artifact, render, filePath, filePath, name]

/-- The service depends on the name and the models. -/
lemma artifact_service_congr (name : entity.name = entity'.name)
    (models : entity.relations.models = entity'.relations.models) (stem description : String) :
    entity.artifact settings Template.Catalog.service stem description =
      entity'.artifact settings Template.Catalog.service stem description :=
  artifact_congr settings name (Template.render_congr
    (agree_context settings (take_context settings name models) (by decide) (by decide)))
    stem description

/-- The module depends on the name. -/
lemma artifact_module_congr (name : entity.name = entity'.name) (stem description : String) :
    entity.artifact settings Template.Catalog.module stem description =
      entity'.artifact settings Template.Catalog.module stem description :=
  artifact_congr settings name (Template.render_congr
    (agree_context settings (take_context_of_name settings name) (by decide) (by decide)))
    stem description

end

end Entity

/-! ### Related models -/

/-- A type without its marks has no other characters than the type. -/
lemma Field.mem_of_mem_elementType {field : Field} {c : Char} (mem : c ∈ field.elementType.toList) :
    c ∈ field.type.toList := by
  apply mem_of_mem_plainType
  obtain ⟨marks, split⟩ := (exists_elementType field).1
  rw [split]
  exact List.mem_append_left _ mem

/-- The name of a related model has no line feed. -/
lemma Relations.not_mem_of_mem_models {body model : String} (mem : model ∈ (ofBody body).models) :
    '\n' ∉ model.toList := by
  obtain ⟨field, here, -, rfl⟩ := mem_models_ofFields.mp mem
  exact fun feed => (Field.oneLine_of_mem_ofBody here).2 (Field.mem_of_mem_elementType feed)

/-- White space around a body has no influence on its relations. -/
lemma Entity.relations_ofBody (name : EntityName) (body : String) :
    (Entity.ofBody name body).relations = Relations.ofBody body := by
  rw [relations, ofBody, Relations.ofBody, Relations.ofBody, Field.ofBody, Field.ofBody,
    Field.entries_trim]

namespace Entity

/-- The service includes the models that the body refers to, each once and in the order in which they
come up, in both of its queries and nowhere else. If there is none, both are plain calls. Bodies with
the same models give the same service, and all bodies give the same module. -/
theorem service_includes {name : EntityName} (word : Schema.IsWord name.source) {settings : Settings}
    (oneLine : settings.persistence.IsOneLine) (body : String) :
    ∃ createDto updateDto plain service module : Artifact,
      (ofBody name body).artifacts settings =
        .ok [createDto, updateDto, plain, service, module] ∧
      service.path =
        name.slug ++ "/" ++ (name.slug ++ ".service" ++ "." ++ settings.extension) ∧
      (Relations.ofBody body).models.Nodup ∧
      service.lines.count "      include: \x7b" =
        (if (Relations.ofBody body).models = [] then 0 else 2) ∧
      methodLines "  findAll() \x7b" service.lines =
        name.findAllLines settings (Relations.ofBody body).models ∧
      methodLines "  findOne(id: number) \x7b" service.lines =
        name.findOneLines settings (Relations.ofBody body).models ∧
      ∀ body' : String, ∃ createDto' updateDto' plain' service' : Artifact,
        (ofBody name body').artifacts settings =
          .ok [createDto', updateDto', plain', service', module] ∧
        ((Relations.ofBody body').models = (Relations.ofBody body).models →
          service' = service) := by
  obtain ⟨createDto, updateDto, plain, service, module, -, -, rendered, -⟩ :=
    exists_artifacts (ofBody name body) settings
  obtain ⟨_, _, _, _, _, same, -, -, -, made, made_module⟩ := exists_of_artifacts rendered
  cases same
  have relations := relations_ofBody name body
  have clean : ∀ model ∈ (ofBody name body).relations.models, '\n' ∉ model.toList := by
    rw [relations]
    exact fun model => Relations.not_mem_of_mem_models
  have queries := service_queries word oneLine clean made
  rw [relations] at queries
  have paths := map_path_artifacts word rendered
  simp only [EntityName.artifactPlaces, List.map_cons, List.cons.injEq] at paths
  refine ⟨createDto, updateDto, plain, service, module, rendered, paths.2.2.2.1,
    Relations.nodup_models_ofFields _, queries.1, queries.2.1, queries.2.2, fun body' => ?_⟩
  obtain ⟨createDto', updateDto', plain', service', module', -, -, rendered', -⟩ :=
    exists_artifacts (ofBody name body') settings
  obtain ⟨_, _, _, _, _, same, -, -, -, made', made_module'⟩ := exists_of_artifacts rendered'
  cases same
  have sameName : (ofBody name body').name = (ofBody name body).name := rfl
  cases made_module.symm.trans
    ((artifact_module_congr settings sameName _ _).symm.trans made_module')
  refine ⟨createDto', updateDto', plain', service', rendered', fun models => ?_⟩
  rw [← relations_ofBody name body', ← relations] at models
  cases made.symm.trans ((artifact_service_congr settings sameName models _ _).symm.trans made')
  rfl

/-- A post refers to users twice and to tags, and its service includes each of the two once. -/
theorem service_includes_post :
    Schema.IsWord "Post" ∧ ({} : Settings).persistence.IsOneLine ∧
      ∃ createDto updateDto plain service module : Artifact,
        (ofBody ⟨"Post"⟩ "author User @relation(fields: [authorId])\ntags Tag[]\neditors User[]?").artifacts
          {} = .ok [createDto, updateDto, plain, service, module] ∧
        service.path = "post/post.service.ts" ∧
        service.lines.count "      include: \x7b" = 2 ∧
        methodLines "  findAll() \x7b" service.lines =
          ["    return this.prisma.post.findMany(\x7b", "      include: \x7b", "        User: true,",
            "        Tag: true,", "      \x7d,", "    \x7d);"] := by
  have word : Schema.IsWord "Post" := by decide +kernel
  have oneLine : ({} : Settings).persistence.IsOneLine := ⟨by decide, by decide, by decide⟩
  have models : (Relations.ofBody
      "author User @relation(fields: [authorId])\ntags Tag[]\neditors User[]?").models =
        ["User", "Tag"] := by decide +kernel
  obtain ⟨createDto, updateDto, plain, service, module, rendered, path, -, count, findAll, -⟩ :=
    @service_includes ⟨"Post"⟩ word {} oneLine
      "author User @relation(fields: [authorId])\ntags Tag[]\neditors User[]?"
  rw [models] at count findAll
  refine ⟨word, oneLine, createDto, updateDto, plain, service, module, rendered, path.trans ?_, count,
    findAll.trans ?_⟩
  · decide +kernel
  · decide +kernel

end Entity

end EntityForge

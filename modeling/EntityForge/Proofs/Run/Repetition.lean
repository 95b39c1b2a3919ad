import EntityForge.Proofs.Run.Effect
import EntityForge.Proofs.Run.Likeness
import EntityForge.Proofs.Run.Standing
import Mathlib

/-!
# Turns that are repeated

A turn that succeeded can be taken again on a machine that has the folder of its entity, the entity
in its registry and the template of the first time. It empties the folder and fills it with what it
has held, and leaves the registry alone.
-/

namespace EntityForge.Run

open Disk (placeOf wayOf trailOf folders SameSort)
open Machine (perform Alike IsLocal)

variable {s : Surroundings} {m m' : Machine}

/-! ### Steps that succeed -/

/-- A folder is renewed if its path passes nothing but folders and does not begin in it. -/
lemma exists_renewFolder (faultless : s.Faultless) {folder : String} (ne : folder ≠ "")
    (isPath : Disk.IsPath folder)
    (stands : ∀ place ∈ trailOf m.here folder, m.disk.get? place = some .folder)
    (apart : ¬ placeOf m.here folder <+: Disk.startOf m.here folder) :
    ∃ m', perform s (renewFolder folder).run m = (.ok (), m') ∧ m'.here = m.here ∧
      ∀ place, m'.disk.get? place =
        (if placeOf m.here folder <+: place then none else m.disk.get? place).or
          (folders (trailOf m.here folder) place) := by
  have reaches : m.disk.Reaches m.here folder :=
    ⟨isPath, fun stop mem => stands stop (Disk.mem_trailOf.mpr (.inl mem))⟩
  have there := stands _ (Disk.placeOf_mem_trailOf _ _)
  have top : placeOf m.here folder ≠ [] := fun root => apart (root ▸ List.nil_prefix)
  have found : (m.looking s (m.disk.find? m.here folder).isSome).1 = true := by
    rw [m.looking_fst (faultless _), Disk.find?_of_reaches reaches, there]
    rfl
  have start : m.disk.get? (Disk.startOf m.here folder) = some .folder :=
    stands _ (Disk.startOf_mem_trailOf _ _)
  have made : ((m.disk.prune (placeOf m.here folder)).makeFolders m.here folder).1 = .ok () := by
    refine (Disk.makeFolders_eq_ok ne).mpr ⟨isPath, ?_, fun stop mem content file => ?_⟩
    · rw [Disk.get?_prune_of_not_prefix apart, start]
    · by_cases below : placeOf m.here folder <+: stop
      · rw [Disk.get?_prune_of_prefix top below] at file
        cases file
      · rw [Disk.get?_prune_of_not_prefix below, stands stop mem] at file
        cases file
  have remove (n : Machine) (disk : n.disk = m.disk) (here : n.here = m.here) :
      perform s (Job.removeTree folder).run n =
        (.ok (), n.after (m.disk.prune (placeOf m.here folder))) := by
    refine Machine.perform_removeTree_ok.mpr ⟨faultless _, _, ?_, rfl⟩
    rw [disk, here]
    exact Disk.removeTree_eq_ok.mpr ⟨reaches, there, rfl⟩
  obtain ⟨m', renew⟩ : ∃ m', perform s (renewFolder folder).run m = (.ok (), m') := by
    rw [renewFolder, Machine.perform_bind, Machine.perform_isPresent, found]
    simp only [if_true]
    rw [Machine.perform_bind, Machine.perform_note]
    simp only
    rw [Machine.perform_bind, remove _ (by rfl) (by rfl)]
    exact ⟨_, Machine.perform_makeFolders_ok.mpr ⟨faultless _, made, rfl⟩⟩
  have renewed := perform_renewFolder_ok ne top renew
  refine ⟨m', renew, renewed.here, fun place => ?_⟩
  rw [renewed.shows, found]
  simp

/-- To write a file below a folder, one has to know what is in the folder and on the way there. -/
lemma isLocal_writeFile {known sorted : Location → Prop} {here : Location} {folder : String}
    (ends : Path.EndsNamed folder) (passed : ∀ stop ∈ trailOf here folder, sorted stop)
    (inside : ∀ place, placeOf here folder <+: place → sorted place) {names : List String}
    (ne : names ≠ []) (named : ∀ name ∈ names, Path.IsName name.toList) (text : String) :
    (writeFile (Path.below folder names) text).All (IsLocal known sorted here) := by
  obtain ⟨front, file, rfl⟩ := (List.eq_nil_or_concat' names).resolve_left ne
  obtain ⟨above, last⟩ := List.forall_mem_append.mp named
  have last := last file (by simp)
  have inner := ends.below above
  have way : ∀ stop ∈ trailOf here (Path.below folder front), sorted stop := by
    intro stop mem
    obtain mem | ⟨names, -, -, rfl⟩ := (Disk.mem_trailOf_below here ends.ne_empty above).mp mem
    · exact passed stop mem
    · exact inside _ (List.prefix_append _ _)
  have target : sorted (placeOf here (Path.below folder (front ++ [file]))) := by
    rw [Disk.placeOf_below here ends.ne_empty named]
    exact inside _ (List.prefix_append _ _)
  rw [Path.below_concat] at target ⊢
  apply all_writeFile
  · intro folder' parent
    rw [inner.parent?_eq last] at parent
    cases parent
    exact way
  · refine ⟨Path.getLast?_name last _, ?_, target⟩
    rw [Disk.wayOf_name here inner.ne_empty last]
    exact way

namespace Options

variable {options : Options}

/-- What can be rendered is rendered. -/
lemma exists_render {entity : Entity} {artifacts : List Artifact}
    (rendered : entity.artifacts options.settings = .ok artifacts) (s : Surroundings) (m : Machine) :
    ∃ m', perform s (options.render entity).run m = (.ok artifacts, m') := by
  have quiet (lines : List Field.Malformed) (m : Machine) :
      ∃ m', perform s (noteMalformed lines).run m = (.ok (), m') := by
    induction lines generalizing m with
    | nil => exact ⟨m, rfl⟩
    | cons line rest ih =>
      obtain ⟨m', noted⟩ := ih _
      exact ⟨m', Machine.perform_bind_ok.mpr ⟨(), _, rfl, noted⟩⟩
  obtain ⟨m', noted⟩ := quiet _ m
  refine ⟨m', Machine.perform_bind_ok.mpr ⟨(), m', noted, ?_⟩⟩
  rw [rendered]
  rfl

/-- A turn succeeds if its steps do. -/
lemma exists_perform_generate (plain : options.scaffolder = none) {schema requested : String}
    {entity : Entity} (declared : Entity.find? schema requested = some entity)
    {artifacts : List Artifact} (rendered : entity.artifacts options.settings = .ok artifacts)
    (s : Surroundings) (m : Machine) : ∃ begun : Machine, begun.disk = m.disk ∧ begun.here = m.here ∧
      ∀ emptied mid written last path files change,
        perform s (renewFolder (options.entityFolder entity.name)).run begun = (.ok (), emptied) →
        perform s (options.writeController entity.name).run emptied = (.ok path, mid) →
        perform s (options.writeArtifacts artifacts).run mid = (.ok files, written) →
        perform s (options.updateRegistry entity.name).run written = (.ok change, last) →
        perform s (options.generate schema requested).run m =
          (.ok ⟨entity.name, files, path, change⟩, last) := by
  obtain ⟨begun, render⟩ := exists_render rendered s m
  obtain ⟨-, disk, here⟩ := options.perform_render_ok render
  refine ⟨begun.note ⟨.files, .info, "generating artifacts",
    [("entity", entity.name.source), ("relations", toString entity.relations.size)]⟩, disk, here, ?_⟩
  intro emptied mid written last path files change renew controller wrote update
  rw [generate, declared]
  refine Machine.perform_bind_ok.mpr ⟨artifacts, begun, render, ?_⟩
  refine Machine.perform_bind_ok.mpr ⟨(), _, rfl, ?_⟩
  refine Machine.perform_bind_ok.mpr ⟨(), emptied, renew, ?_⟩
  refine Machine.perform_bind_ok.mpr ⟨(), emptied, ?_, ?_⟩
  · rw [runScaffolder, plain]
    rfl
  refine Machine.perform_bind_ok.mpr ⟨path, mid, controller, ?_⟩
  refine Machine.perform_bind_ok.mpr ⟨files, written, wrote, ?_⟩
  exact Machine.perform_bind_ok.mpr ⟨change, last, update, rfl⟩

/-- Nothing is written if an entity is registered already. -/
lemma exists_updateRegistry (faultless : s.Faultless) {name : EntityName} {document : String}
    {listFound : Bool} (read : m.disk.readText m.here options.registry = .ok document)
    (registered : Registry.register? options.importRoot document name =
      some ⟨document, false, false, listFound⟩) :
    ∃ m', perform s (options.updateRegistry name).run m = (.ok ⟨false, false, listFound⟩, m') ∧
      m'.here = m.here ∧ m'.disk = m.disk := by
  have read : perform s (Job.readText options.registry).run m = (.ok document, m.count) :=
    Machine.perform_readText_ok.mpr ⟨faultless _, read, rfl⟩
  rw [updateRegistry, Machine.perform_bind, read]
  simp only [registered]
  cases listFound with
  | false => exact ⟨_, rfl, rfl, rfl⟩
  | true => exact ⟨_, rfl, rfl, rfl⟩

/-! ### A turn that is repeated -/

section

variable {name : EntityName} (word : Schema.IsWord name.source)
  (hext : '/' ∉ options.settings.extension.toList) {known sorted : Location → Prop} {here : Location}
  (passed : ∀ stop ∈ trailOf here (options.entityFolder name), sorted stop)
  (inside : ∀ place, placeOf here (options.entityFolder name) <+: place → sorted place)

include word hext passed inside

/-- To write a controller, one has to know the template, too. -/
lemma isLocal_writeController (read : ∀ template ∈ options.controllerTemplate,
      (∀ stop ∈ trailOf here template, sorted stop) ∧ known (placeOf here template)) :
    (options.writeController name).All (IsLocal known sorted here) := by
  refine options.all_writeController name (fun _ => trivial) (fun template some => ?_) fun text => ?_
  · obtain ⟨trail, text⟩ := read template some
    have way := fun stop mem => trail stop (Disk.mem_trailOf.mpr (.inl mem))
    exact ⟨⟨way, trail _ (Disk.placeOf_mem_trailOf _ _)⟩, way, text⟩
  · rw [options.controllerPath_eq word]
    exact isLocal_writeFile (options.endsNamed_entityFolder word) passed inside
      (List.cons_ne_nil _ _) (List.forall_mem_singleton.mpr (EntityName.isName_controllerName word hext))
      text

end

/-- Writing the artifacts of an entity depends on nothing but its folder and the way there. -/
lemma isLocal_writeArtifacts {entity : Entity} (word : Schema.IsWord entity.name.source)
    (hext : '/' ∉ options.settings.extension.toList) {known sorted : Location → Prop}
    {here : Location}
    (passed : ∀ stop ∈ trailOf here (options.entityFolder entity.name), sorted stop)
    (inside : ∀ place, placeOf here (options.entityFolder entity.name) <+: place → sorted place)
    {artifacts : List Artifact} (rendered : entity.artifacts options.settings = .ok artifacts) :
    (options.writeArtifacts artifacts).All (IsLocal known sorted here) := by
  refine options.all_writeArtifacts (fun _ => trivial) fun a mem => ?_
  have path := List.mem_map_of_mem (f := fun a => Path.join options.outputFolder a.path) mem
  rw [options.join_artifacts word rendered] at path
  obtain ⟨names, mem, path⟩ := List.mem_map.mp path
  rw [← path]
  refine isLocal_writeFile (options.endsNamed_entityFolder word) passed inside ?_
    (EntityName.isName_of_mem_artifactPlaces word hext names mem) a.content
  rintro rfl
  simp [EntityName.artifactPlaces] at mem

/-- Whether it makes a difference to the files of an entity what stands at a place. -/
def Read (options : Options) (here : Location) (name : EntityName) (place : Location) : Prop :=
  placeOf here (options.entityFolder name) <+: place ∨
    ∃ template ∈ options.controllerTemplate, place = placeOf here template

/-- Whether it makes a difference to the files of an entity if a folder stands at a place. -/
def Passed (options : Options) (here : Location) (name : EntityName) (place : Location) : Prop :=
  placeOf here (options.entityFolder name) <+: place ∨
    place ∈ trailOf here (options.entityFolder name) ∨
    ∃ template ∈ options.controllerTemplate, place ∈ trailOf here template

/-- Whether an entity is registered in the registry of a machine. -/
def Settled (options : Options) (m : Machine) (name : String) : Prop :=
  ∃ document listFound, options.registryText m = some document ∧
    Registry.register? options.importRoot document ⟨name⟩ = some ⟨document, false, false, listFound⟩

/-- Whether a machine holds the template that a turn has met, and not in the folder of its entity. -/
def Turn.Shares {schema requested : String} {report : Report}
    (t : options.Turn s schema requested report m m') (n : Machine) : Prop :=
  ∀ template ∈ options.controllerTemplate,
    (∀ stop ∈ trailOf m.here template,
      ¬ placeOf m.here (options.entityFolder ⟨requested⟩) <+: stop ∧
        SameSort t.emptied.disk n.disk stop) ∧
      t.emptied.disk.get? (placeOf m.here template) = n.disk.get? (placeOf m.here template)

namespace Turn

variable {schema requested : String} {report : Report}
  (t : options.Turn s schema requested report m m')
  (hext : '/' ∉ options.settings.extension.toList) (faultless : s.Faultless)

include t hext faultless

/-- The files of an entity can be written again on a machine that is alike. -/
lemma exists_written {n : Machine}
    (alike : Alike (options.Read m.here t.entity.name) (options.Passed m.here t.entity.name)
      t.emptied n) : ∃ mid written,
    perform s (options.writeController t.entity.name).run n = (.ok report.controller, mid) ∧
    perform s (options.writeArtifacts t.filling.artifacts).run mid = (.ok report.files, written) ∧
    written.here = n.here ∧
    ∀ place, written.disk.get? place =
      if placeOf m.here (options.entityFolder t.entity.name) <+: place then
        t.written.disk.get? place
      else n.disk.get? place := by
  obtain ⟨mid, controller, artifacts⟩ := t.stages
  have word := t.filling.word
  have here := alike.here.trans t.renewed.here
  have way : ∀ place ∈ trailOf m.here (options.entityFolder t.entity.name),
      n.disk.get? place = some .folder := fun place mem =>
    (alike.sort place (.inr (.inl mem))).folder_iff.mp (t.renewed.way place mem)
  have first {here : Location} (e : here = m.here) : (options.writeController t.entity.name).All
      (IsLocal (options.Read m.here t.entity.name) (options.Passed m.here t.entity.name) here) := by
    subst e
    refine isLocal_writeController word hext (fun _ mem => .inr (.inl mem))
      (fun _ below => .inl below) fun template mem => ?_
    exact ⟨fun stop passed => .inr (.inr ⟨template, mem, passed⟩), .inr ⟨template, mem, rfl⟩⟩
  have second {here : Location} (e : here = m.here) : (options.writeArtifacts t.filling.artifacts).All
      (IsLocal (options.Read m.here t.entity.name) (options.Passed m.here t.entity.name) here) := by
    subst e
    exact isLocal_writeArtifacts word hext (fun _ mem => .inr (.inl mem))
      (fun _ below => .inl below) t.filling.rendered
  obtain ⟨path, alike⟩ := alike.perform faultless (first t.renewed.here)
  rw [controller] at path alike
  generalize controller' : perform s (options.writeController t.entity.name).run n = taken
    at path alike
  obtain ⟨_, mid'⟩ := taken
  cases path
  have stays := Machine.here_perform s (options.writeController t.entity.name).run t.emptied
  rw [controller, t.renewed.here] at stays
  obtain ⟨files, alike⟩ := alike.perform faultless (second stays)
  rw [artifacts] at files alike
  generalize artifacts' : perform s (options.writeArtifacts t.filling.artifacts).run mid' = taken
    at files alike
  obtain ⟨_, written⟩ := taken
  cases files
  obtain ⟨-, filling, -⟩ := options.exists_filling here word hext t.filling.rendered way controller'
    artifacts'
  refine ⟨mid', written, rfl, artifacts', filling.laid.1.trans here.symm, fun place => ?_⟩
  split_ifs with below
  · exact (alike.same place (.inl below)).symm
  · exact filling.get?_eq hext below

omit hext in
/-- What is emptied again is alike, if the machine holds the same template. -/
lemma alike (visible : options.Visible m requested) {n emptied : Machine} (here : n.here = m.here)
    (stands : options.Standing n requested) (template : t.Shares n) (here' : emptied.here = n.here)
    (shows : ∀ place, emptied.disk.get? place =
      (if placeOf m.here (options.entityFolder t.entity.name) <+: place then none
        else n.disk.get? place).or
          (folders (trailOf m.here (options.entityFolder t.entity.name)) place)) :
    Alike (options.Read m.here t.entity.name) (options.Passed m.here t.entity.name) t.emptied
      emptied := by
  have before := t.emptied_eq faultless (t.vacant visible)
  have folder := stands.folder
  rw [here, ← t.entity_name_eq] at folder
  rw [Shares, ← t.entity_name_eq] at template
  have inside (place : Location)
      (below : placeOf m.here (options.entityFolder t.entity.name) <+: place) :
      t.emptied.disk.get? place = emptied.disk.get? place := by
    rw [before, shows, if_pos below, if_pos below]
  have outside (place : Location)
      (elsewhere : ¬ placeOf m.here (options.entityFolder t.entity.name) <+: place) :
      emptied.disk.get? place = n.disk.get? place := by
    rw [shows, if_neg elsewhere, Disk.or_folders folder]
  refine ⟨(here'.trans here).trans t.renewed.here.symm, ?_, ?_⟩
  · rintro place (below | ⟨path, mem, rfl⟩)
    · exact inside place below
    · obtain ⟨trail, text⟩ := template path mem
      obtain ⟨elsewhere, -⟩ := trail _ (Disk.placeOf_mem_trailOf _ _)
      rw [text, outside _ elsewhere]
  · rintro place (below | passed | ⟨path, mem, passed⟩)
    · exact .of_eq (inside place below)
    · refine .of_eq ?_
      by_cases below : placeOf m.here (options.entityFolder t.entity.name) <+: place
      · exact inside place below
      · rw [t.renewed.way place passed, outside place below, folder place passed]
    · obtain ⟨elsewhere, sort⟩ := (template path mem).1 place passed
      exact sort.trans (SameSort.of_eq (outside place elsewhere).symm)

/-- A turn can be repeated on a machine that has the folder of its entity, and the entity in its
registry. It reports the same and leaves in the folder what it left there before, if the machine
holds the same template. -/
lemma exists_again (visible : options.Visible m requested) {n : Machine} (here : n.here = m.here)
    (stands : options.Standing n requested) (settled : options.Settled n requested)
    (outside : ¬ placeOf m.here (options.entityFolder ⟨requested⟩) <+:
      placeOf m.here options.registry)
    (template : t.Shares n) (plain : options.scaffolder = none) :
    ∃ listFound n', perform s (options.generate schema requested).run n =
        (.ok { report with registry := ⟨false, false, listFound⟩ }, n') ∧ n'.here = n.here ∧
      ∀ place, n'.disk.get? place =
        if placeOf m.here (options.entityFolder ⟨requested⟩) <+: place then
          t.written.disk.get? place
        else n.disk.get? place := by
  have name := t.entity_name_eq
  have ends := options.endsNamed_entityFolder t.filling.word
  have apart := t.apart faultless visible
  have folder := stands.folder
  obtain ⟨document, listFound, registry, registered⟩ := settled
  rw [here, ← name] at folder
  rw [← name] at apart outside registered
  obtain ⟨begun, disk, begins, generates⟩ :=
    exists_perform_generate plain t.declared t.filling.rendered s n
  -- the folder is emptied
  have renews := @exists_renewFolder s begun faultless _ ends.ne_empty t.renewed.isPath
  rw [disk, begins, here] at renews
  obtain ⟨emptied, renew, place, shows⟩ := renews folder apart
  have kept (place : Location)
      (elsewhere : ¬ placeOf m.here (options.entityFolder t.entity.name) <+: place) :
      emptied.disk.get? place = n.disk.get? place := by
    rw [shows, if_neg elsewhere, Disk.or_folders folder]
  -- and filled with the files that it held
  obtain ⟨mid, written, controller, artifacts, place', holds⟩ := t.exists_written hext faultless
    (t.alike faultless visible here stands template (place.trans here.symm) shows)
  rw [place] at place'
  -- the registry is left alone
  have read : written.disk.readText written.here options.registry = .ok document := by
    rw [registryText_eq_some, here] at registry
    rw [place']
    refine Disk.readText_eq_ok.mpr ⟨⟨(Disk.readText_eq_ok.mp t.read).1.1, fun stop mem => ?_⟩, ?_⟩
    · rw [holds]
      split_ifs with below
      · exact (Disk.readText_eq_ok.mp t.read).1.2 stop mem
      · rw [kept stop below]
        exact stands.registry stop (here ▸ mem)
    · rw [holds, if_neg outside, kept _ outside]
      exact registry
  obtain ⟨last, update, ends, same⟩ := exists_updateRegistry faultless read registered
  refine ⟨listFound, last, ?_, ?_, fun place => ?_⟩
  · rw [t.name_eq]
    exact generates _ _ _ _ _ _ _ renew controller artifacts update
  · rw [ends, place', here]
  · rw [same, holds, name]
    split_ifs with below
    · rfl
    · exact kept place (name ▸ below)

end Turn

end Options

end EntityForge.Run

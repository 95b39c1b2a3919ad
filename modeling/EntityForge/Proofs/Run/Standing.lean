import EntityForge.Proofs.Disk.Likeness
import EntityForge.Proofs.Run.Discovery
import EntityForge.Proofs.Run.Registered
import Mathlib

/-!
# What turns leave standing

A turn leaves folders all the way to the folder of its entity and to the registry, and later turns
leave them there. Once there are folders all the way to the output folder, a turn changes nothing
but the folder of its entity and the text of the registry.
-/

namespace EntityForge.Run.Options

open Disk (placeOf wayOf trailOf folders SameSort)
open Machine (perform)

variable {options : Options} {s : Surroundings} {schema requested name : String} {m m' : Machine}

/-! ### Runs that come to their end -/

/-- The turns of a run that comes to its end: each either misses its model and leaves everything as
it was, or succeeds. -/
inductive Completed (options : Options) (s : Surroundings) (schema : String) :
    List String → Machine → List Outcome → Machine → Prop where
  | nil {m : Machine} : Completed options s schema [] m [] m
  | miss {requested : String} {rest : List String} {m n m' : Machine} {more : List Outcome} :
    Entity.find? schema requested = none → n.disk = m.disk → n.here = m.here →
    Completed options s schema rest n more m' →
    Completed options s schema (requested :: rest) m
      (⟨requested, .error (.modelNotFound requested)⟩ :: more) m'
  | turn {requested : String} {rest : List String} {report : Report} {m mid n m' : Machine}
      {more : List Outcome} (t : options.Turn s schema requested report m mid) :
    n.disk = mid.disk → n.here = mid.here →
    Completed options s schema rest n more m' →
    Completed options s schema (requested :: rest) m (⟨requested, .ok report⟩ :: more) m'

/-- A turn does not depend on what a machine was told before. -/
def Turn.untold {report : Report} {event : Event}
    (t : options.Turn s schema requested report (m.tell event) m') :
    options.Turn s schema requested report m m' where
  entity := t.entity
  found := t.found
  emptied := t.emptied
  written := t.written
  document := t.document
  registration := t.registration
  declared := t.declared
  found_eq := t.found_eq
  renewed := t.renewed.congr rfl rfl
  filling := t.filling
  stages := t.stages
  read := t.read
  registered := t.registered
  name_eq := t.name_eq
  files_eq := t.files_eq
  registry_eq := t.registry_eq
  here := t.here
  shows := t.shows

/-- A turn that is recorded as a failure has missed its model. -/
lemma missing_of_isEntityScoped {e : Failure}
    (h : perform s (options.generate schema requested).run m = (.error e, m'))
    (alone : e.isEntityScoped) :
    Entity.find? schema requested = none ∧ e = .modelNotFound requested ∧ m' = m := by
  cases declared : Entity.find? schema requested with
  | none =>
    rw [generate, declared] at h
    cases h
    exact ⟨rfl, rfl, rfl⟩
  | some entity =>
    have ends := ends_generate (List.mem_singleton_self requested) (by rw [declared]; rfl) h
    rw [ends.isEntityScoped] at alone
    cases alone

/-- Turns without a scaffolder that came to their end are completed. -/
lemma Turns.completed (plain : options.scaffolder = none)
    (hext : '/' ∉ options.settings.extension.toList) {names : List String}
    {outcomes : List Outcome} (turns : options.Turns s schema names m (.ok outcomes) m') :
    options.Completed s schema names m outcomes m' := by
  generalize ends : Except.ok outcomes = result at turns
  induction turns generalizing outcomes with
  | nil =>
    cases ends
    exact .nil
  | stop => cases ends
  | @next requested rest m mid m' result more turn goesOn _ ih =>
    cases more with
    | error e => cases ends
    | ok more =>
      cases ends
      cases result with
      | ok report =>
        obtain ⟨t⟩ := options.exists_turn plain hext turn
        exact .turn t.untold (by rfl) (by rfl) (ih rfl)
      | error e =>
        obtain ⟨none_, rfl, rfl⟩ := missing_of_isEntityScoped turn (goesOn e rfl)
        exact .miss none_ (by rfl) (by rfl) (ih rfl)

/-! ### Folders that stand -/

/-- Whether there are folders all the way to the output folder. -/
def Paved (options : Options) (m : Machine) : Prop :=
  ∀ place ∈ trailOf m.here options.outputFolder, m.disk.get? place = some .folder

/-- Whether there are folders all the way to the folder of an entity and to the registry. -/
structure Standing (options : Options) (m : Machine) (name : String) : Prop where
  folder : ∀ place ∈ trailOf m.here (options.entityFolder ⟨name⟩),
    m.disk.get? place = some .folder
  registry : ∀ place ∈ wayOf m.here options.registry, m.disk.get? place = some .folder

/-- There are folders to the output folder if there are folders to one below it. -/
lemma Standing.paved (stands : options.Standing m name) (word : Schema.IsWord name) :
    options.Paved m := by
  intro place mem
  have word : Schema.IsWord (⟨name⟩ : EntityName).source := word
  exact stands.folder place ((options.mem_trailOf_entityFolder word).mpr (.inl mem))

/-- What stands stands on every machine with the same disk. -/
lemma Standing.congr {n : Machine} (stands : options.Standing m name) (disk : n.disk = m.disk)
    (here : n.here = m.here) : options.Standing n name := by
  obtain ⟨folder, registry⟩ := stands
  rw [← disk, ← here] at folder registry
  exact ⟨folder, registry⟩

namespace Turn

variable {report : Report} (t : options.Turn s schema requested report m m')

include t

/-- To register an entity does not make a file a folder, or a folder a file. -/
lemma sameSort (place : Location) : SameSort t.written.disk m'.disk place := by
  rw [SameSort, t.shows]
  split_ifs with registry
  · rw [registry, (Disk.readText_eq_ok.mp t.read).2]
    rfl
  · rfl

/-- A turn leaves the folders that the next one of its entity meets. -/
lemma standing : options.Standing m' requested := by
  constructor
  · intro place mem
    rw [t.here, ← t.entity_name_eq] at mem
    exact (t.sameSort place).folder_iff.mp (t.filling.folder_of_trail mem)
  · intro place mem
    rw [t.here] at mem
    exact (t.sameSort place).folder_iff.mp ((Disk.readText_eq_ok.mp t.read).1.2 place mem)

variable (hext : '/' ∉ options.settings.extension.toList)

include hext

/-- What is not in the folder of the entity stays if there were folders to the output folder. -/
lemma get?_written (paved : options.Paved m) {place : Location}
    (outside : ¬ placeOf m.here (options.entityFolder ⟨requested⟩) <+: place) :
    t.written.disk.get? place = m.disk.get? place := by
  rw [← t.entity_name_eq] at outside
  rw [t.written_eq hext outside, folders]
  split_ifs with passed
  · obtain passed | last := (options.mem_trailOf_entityFolder t.filling.word).mp passed
    · rw [paved place passed]
      rfl
    · exact absurd (last ▸ List.prefix_rfl) outside
  · exact Option.or_none

/-- A folder of another entity that stands is left standing. -/
lemma standing_of (word : Schema.IsWord name)
    (stands : m.disk.get? (placeOf m.here (options.entityFolder ⟨name⟩)) = some .folder) :
    options.Standing m' name := by
  refine ⟨fun place mem => ?_, t.standing.registry⟩
  have word' : Schema.IsWord (⟨name⟩ : EntityName).source := word
  obtain passed | last := (options.mem_trailOf_entityFolder word').mp mem
  · exact t.standing.paved t.word place passed
  rw [last, t.here]
  by_cases same : (⟨requested⟩ : EntityName).slug = (⟨name⟩ : EntityName).slug
  · -- the two share their folder
    have folder : options.entityFolder ⟨name⟩ = options.entityFolder ⟨requested⟩ := by
      rw [entityFolder, entityFolder, same]
    rw [folder, ← t.here]
    exact t.standing.folder _ (Disk.placeOf_mem_trailOf _ _)
  · have outside : ¬ placeOf m.here (options.entityFolder t.entity.name) <+:
        placeOf m.here (options.entityFolder ⟨name⟩) := by
      rw [t.entity_name_eq]
      exact fun below => not_prefix_of_slug_ne t.word word same below List.prefix_rfl
    refine (t.sameSort _).folder_iff.mp ?_
    rw [t.written_eq hext outside, stands]
    rfl

end Turn

/-- Whether a place is in the folder of none of the entities that are declared. -/
def Outside (options : Options) (schema : String) (names : List String) (here place : Location) :
    Prop :=
  ∀ name ∈ names, (Entity.find? schema name).isSome →
    ¬ placeOf here (options.entityFolder ⟨name⟩) <+: place

namespace Completed

variable {names : List String} {outcomes : List Outcome}

/-- Turns lead nowhere else. -/
lemma here (run : options.Completed s schema names m outcomes m') : m'.here = m.here := by
  induction run with
  | nil => rfl
  | miss _ _ here _ ih => exact ih.trans here
  | turn t _ here _ ih => exact ih.trans (here.trans t.here)

variable (hext : '/' ∉ options.settings.extension.toList)

include hext

/-- There are folders to every entity that was generated, whatever turns came later. -/
lemma standing (run : options.Completed s schema names m outcomes m')
    (declared : (Entity.find? schema name).isSome)
    (h : name ∈ names ∨ options.Standing m name) : options.Standing m' name := by
  have word := Entity.isWord_of_isSome declared
  induction run with
  | nil => exact h.resolve_left List.not_mem_nil
  | miss none_ disk here _ ih =>
    refine ih (h.imp (fun mem => ?_) fun stands => stands.congr disk here)
    refine (List.mem_cons.mp mem).resolve_left ?_
    rintro rfl
    rw [none_] at declared
    cases declared
  | turn t disk here _ ih =>
    obtain mem | stands := h
    · obtain rfl | mem := List.mem_cons.mp mem
      · exact ih (.inr (t.standing.congr disk here))
      · exact ih (.inl mem)
    · have folder := stands.folder _ (Disk.placeOf_mem_trailOf _ _)
      exact ih (.inr ((t.standing_of hext word folder).congr disk here))

/-- Turns change nothing outside the folders of their entities but the text of the registry, if there
are folders to the output folder or something is in the place already. -/
lemma get?_eq (run : options.Completed s schema names m outcomes m') {place : Location}
    (outside : options.Outside schema names m.here place)
    (settled : options.Paved m ∨ m.disk.get? place ≠ none) :
    SameSort m.disk m'.disk place ∧
      (place ≠ placeOf m.here options.registry → m'.disk.get? place = m.disk.get? place) := by
  induction run with
  | nil => exact ⟨rfl, fun _ => rfl⟩
  | miss _ disk here _ ih =>
    rw [Paved, ← disk, ← here] at settled
    rw [← here] at outside
    have rest := ih (List.forall_mem_cons.mp outside).2 settled
    rwa [disk, here] at rest
  | @turn requested rest report m mid n m' more t disk here _ ih =>
    obtain ⟨first, others⟩ := List.forall_mem_cons.mp outside
    have first := first t.isSome_find?
    have kept : t.written.disk.get? place = m.disk.get? place := by
      obtain paved | there := settled
      · exact t.get?_written hext paved first
      · obtain ⟨entry, there⟩ := Option.ne_none_iff_exists'.mp there
        rw [t.written_eq hext (t.entity_name_eq ▸ first), there, Option.some_or]
    have paved : options.Paved n := (t.standing.congr disk here).paved t.word
    have same := t.sameSort place
    rw [SameSort, kept] at same
    rw [← t.here, ← here] at others
    obtain ⟨sort, text⟩ := ih others (.inl paved)
    rw [SameSort, disk] at sort
    rw [disk, here, t.here] at text
    refine ⟨same.trans sort, fun ne => (text ne).trans ?_⟩
    rw [t.shows, if_neg ne, kept]

end Completed

/-! ### Folders that can be seen -/

/-- Whether the folder of an entity is found by its path if anything stands in its place or below. -/
def Visible (options : Options) (m : Machine) (name : String) : Prop :=
  (∀ place, placeOf m.here (options.entityFolder ⟨name⟩) <+: place → m.disk.get? place = none) ∨
    (∀ stop ∈ wayOf m.here (options.entityFolder ⟨name⟩), m.disk.get? stop = some .folder) ∧
      m.disk.get? (placeOf m.here (options.entityFolder ⟨name⟩)) ≠ none

/-- What is visible is visible on every machine with the same disk. -/
lemma Visible.congr {n : Machine} (visible : options.Visible m name) (disk : n.disk = m.disk)
    (here : n.here = m.here) : options.Visible n name := by
  rw [Visible, disk, here]
  exact visible

/-- A folder is visible if nothing lies in it where it is not found. -/
lemma visible_of_find? (h : m.disk.find? m.here (options.entityFolder ⟨name⟩) = none →
    ∀ place, placeOf m.here (options.entityFolder ⟨name⟩) <+: place → m.disk.get? place = none) :
    options.Visible m name := by
  cases found : m.disk.find? m.here (options.entityFolder ⟨name⟩) with
  | none => exact .inl (h found)
  | some entry =>
    obtain ⟨⟨-, way⟩, there⟩ := Disk.find?_eq_some.mp found
    exact .inr ⟨way, by rw [there]; nofun⟩

namespace Turn

variable {report : Report} (t : options.Turn s schema requested report m m')

include t

/-- A folder that is not found is not there. -/
lemma vacant (visible : options.Visible m requested) :
    m.disk.find? m.here (options.entityFolder t.entity.name) = none →
      ∀ place, placeOf m.here (options.entityFolder t.entity.name) <+: place →
        m.disk.get? place = none := by
  have isPath := t.renewed.isPath
  rw [t.entity_name_eq] at isPath ⊢
  intro missing
  obtain vacant | ⟨way, there⟩ := visible
  · exact vacant
  · rw [Disk.find?_of_reaches ⟨isPath, way⟩] at missing
    exact absurd missing there

/-- The path to a folder does not begin in the folder. -/
lemma apart (faultless : s.Faultless) (visible : options.Visible m requested) :
    ¬ placeOf m.here (options.entityFolder ⟨requested⟩) <+:
      Disk.startOf m.here (options.entityFolder ⟨requested⟩) := by
  have renewed := t.renewed
  have found := t.found_eq faultless
  rw [t.entity_name_eq] at renewed found
  obtain vacant | ⟨way, there⟩ := visible
  · intro below
    have start := renewed.start
    rw [vacant _ below] at start
    cases start
  · refine renewed.apart ?_
    rw [found, Disk.find?_of_reaches ⟨renewed.isPath, way⟩]
    exact Option.isSome_iff_ne_none.mpr there

/-- A turn hides the folder of no entity. -/
lemma visible_of (hext : '/' ∉ options.settings.extension.toList) (word : Schema.IsWord name)
    (outside : ¬ placeOf m.here (options.entityFolder ⟨name⟩) <+: placeOf m.here options.registry)
    (visible : options.Visible m name) : options.Visible m' name := by
  have word' : Schema.IsWord (⟨name⟩ : EntityName).source := word
  by_cases missing : m'.disk.get? (placeOf m.here (options.entityFolder ⟨name⟩)) = none
  · have apart : (⟨requested⟩ : EntityName).slug ≠ (⟨name⟩ : EntityName).slug := by
      intro same
      have folder : options.entityFolder ⟨name⟩ = options.entityFolder ⟨requested⟩ := by
        rw [entityFolder, entityFolder, same]
      have there := t.standing.folder _ (Disk.placeOf_mem_trailOf _ _)
      rw [t.here, ← folder, missing] at there
      cases there
    have after (place : Location)
        (below : placeOf m.here (options.entityFolder ⟨name⟩) <+: place) :
        m'.disk.get? place = (m.disk.get? place).or
          (folders (trailOf m.here (options.entityFolder t.entity.name)) place) := by
      have elsewhere : ¬ placeOf m.here (options.entityFolder t.entity.name) <+: place := by
        rw [t.entity_name_eq]
        exact fun below' => not_prefix_of_slug_ne t.word word apart below' below
      rw [t.shows, if_neg (by rintro rfl; exact outside below), t.written_eq hext elsewhere]
    rw [after _ List.prefix_rfl, Option.or_eq_none_iff] at missing
    obtain ⟨missing, passed⟩ := missing
    obtain vacant | ⟨-, there⟩ := visible
    · refine .inl fun place below => ?_
      rw [t.here] at below
      rw [after place below, vacant place below, Option.none_or, folders, if_neg]
      intro mem
      -- whoever comes below the folder has passed it
      have start : ¬ placeOf m.here (options.entityFolder ⟨name⟩) <+:
          Disk.startOf m.here (options.entityFolder t.entity.name) := by
        intro below
        have start := t.renewed.start
        rw [vacant _ below] at start
        cases start
      rw [folders, if_pos (Disk.mem_trailOf_of_prefix start mem below)] at passed
      cases passed
    · exact absurd missing there
  · refine .inr ⟨fun stop mem => ?_, by rwa [t.here]⟩
    exact t.standing.paved t.word stop ((options.mem_wayOf_entityFolder word').mp mem)

end Turn

end EntityForge.Run.Options

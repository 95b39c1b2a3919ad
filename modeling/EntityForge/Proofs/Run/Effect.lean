import EntityForge.Proofs.Run.Turn
import Mathlib

/-!
# What a turn does to the disk

Place by place: the folder of the entity holds the files that were written for it and nothing that
was there before, the registry holds its old text with the entity registered, and all else is as it
was, except that there are folders on the way to the folder. Without a model of the name nothing
happens at all.
-/

namespace EntityForge.Run.Options

open Disk (placeOf trailOf folders)
open Machine (perform)

/-- If no model has the name, no entity is found. -/
lemma find?_eq_none {schema requested : String} (none_ : ∀ model ∈ Schema.models schema,
    Text.lowerCase model.name.toList ≠ Text.lowerCase requested.toList) :
    Entity.find? schema requested = none := by
  have missing : (Schema.models schema).find? (fun model =>
      Text.lowerCase model.name.toList == Text.lowerCase requested.toList) = none :=
    List.find?_eq_none.mpr fun model mem => by simpa using none_ model mem
  rw [Entity.find?, Schema.body?, missing]
  rfl

/-- Before files are written, the folder of the entity holds nothing but folders on the way to it,
and all else is as it was, with folders on the way. -/
lemma Turn.emptied_eq {s : Surroundings} {options : Options} {schema requested : String}
    {report : Report} {m m' : Machine} (t : options.Turn s schema requested report m m')
    (faultless : s.Faultless)
    (reached : m.disk.find? m.here (options.entityFolder t.entity.name) = none →
      ∀ place, placeOf m.here (options.entityFolder t.entity.name) <+: place →
        m.disk.get? place = none) (place : Location) :
    t.emptied.disk.get? place =
      (if placeOf m.here (options.entityFolder t.entity.name) <+: place then none
        else m.disk.get? place).or
          (folders (trailOf m.here (options.entityFolder t.entity.name)) place) := by
  rw [t.renewed.shows, t.found_eq faultless]
  split_ifs with both below below
  · rfl
  · exact absurd both.2 below
  · rw [reached (by simpa [below] using both) place below]
  · rfl

variable (options : Options)

/-- The effect of a turn. One that succeeds without a scaffolder has emptied the folder of its entity
and written the files there, and has changed nothing else but the registry, if the registry is not in
the folder and the folder is not to be seen only where its path does not lead to it. Without that the
path may go up again from a folder that is made for it, and what lay in the folder of the entity
stays. Whatever the options are, the turn of a name that no model has does nothing. -/
theorem generate_effect {s : Surroundings} {schema requested : String} {m : Machine} :
    (options.scaffolder = none → '/' ∉ options.settings.extension.toList → s.Faultless →
      ¬ placeOf m.here (options.entityFolder ⟨requested⟩) <+: placeOf m.here options.registry →
      (m.disk.find? m.here (options.entityFolder ⟨requested⟩) = none →
        ∀ place, placeOf m.here (options.entityFolder ⟨requested⟩) <+: place →
          m.disk.get? place = none) →
      ∀ report m', perform s (options.generate schema requested).run m = (.ok report, m') →
      ∃ entity artifacts emptied document r,
        Entity.find? schema requested = some entity ∧
        entity.artifacts options.settings = .ok artifacts ∧
        (∀ place, emptied.get? place =
          (if placeOf m.here (options.entityFolder entity.name) <+: place then none
            else m.disk.get? place).or
              (folders (trailOf m.here (options.entityFolder entity.name)) place)) ∧
        (∀ template ∈ options.controllerTemplate, (emptied.find? m.here template).isSome →
          ∃ text, emptied.readText m.here template = .ok text) ∧
        m.disk.get? (placeOf m.here options.registry) = some (.file (.text document)) ∧
        Registry.register? options.importRoot document entity.name = some r ∧
        m'.here = m.here ∧
        (∀ artifact ∈ artifacts, m'.disk.get? (placeOf m.here
          (Path.join options.outputFolder artifact.path)) = some (.file (.text artifact.content))) ∧
        ∀ place, m'.disk.get? place =
          if place = placeOf m.here options.registry then some (.file (.text r.document))
          else (layout (placeOf m.here (options.entityFolder entity.name))
            (options.controllerOn m.here emptied entity.name ++ options.placed m.here artifacts)
              place).or (emptied.get? place)) ∧
    ((∀ model ∈ Schema.models schema,
        Text.lowerCase model.name.toList ≠ Text.lowerCase requested.toList) →
      perform s (options.generate schema requested).run m =
        (.error (.modelNotFound requested), m)) := by
  refine ⟨fun plain hext faultless outside reached report m' h => ?_, fun none_ => ?_⟩
  · obtain ⟨t⟩ := options.exists_turn plain hext h
    rw [← t.entity_name_eq] at outside reached
    obtain ⟨controller, present⟩ := t.filling.controller_eq faultless
    refine ⟨t.entity, t.filling.artifacts, t.emptied.disk, t.document, t.registration,
      t.declared, t.filling.rendered, t.emptied_eq faultless reached, present, t.document_at hext outside,
      t.registered, t.here, fun _ => t.artifact_at hext outside, fun place => ?_⟩
    rw [t.shows, t.filling.laid.2.2, ← controller]
  · rw [generate, find?_eq_none none_]
    rfl

/-- A project with the output of an earlier run. -/
def earlier : Disk :=
  ⟨[(["src"], .folder), (["src", "shared"], .folder),
    (["src", "shared", "app.module.ts"], .file (.text "imports: []\n")),
    (["src", "modules"], .folder), (["src", "modules", "user"], .folder),
    (["src", "modules", "user", "old.ts"], .file (.text ""))]⟩

/-- A disk on which all goes well and nothing is launched. -/
def calm : Surroundings :=
  ⟨fun _ _ disk => ⟨.ok (), "", "", disk⟩, fun _ => none, fun _ _ => false, fun _ => 0⟩

/-- The turn of a user writes the artifacts, and that of a post finds no model. -/
theorem generate_effect_user :
    (∃ report m' artifacts, perform calm (({} : Options).generate "model User \x7b id Int \x7d"
        "uSER").run ⟨earlier, [], 0, [], []⟩ = (.ok report, m') ∧
      (⟨⟨"uSER"⟩, "id Int"⟩ : Entity).artifacts {} = .ok artifacts ∧
      ∀ artifact ∈ artifacts, m'.disk.get? (placeOf [] (Path.join "src/modules" artifact.path)) =
        some (.file (.text artifact.content))) ∧
    perform calm (({} : Options).generate "model User \x7b id Int \x7d" "Post").run
      ⟨earlier, [], 0, [], []⟩ = (.error (.modelNotFound "Post"), ⟨earlier, [], 0, [], []⟩) := by
  have extension : '/' ∉ ({} : Options).settings.extension.toList := by simp
  have outside : ¬ placeOf [] (({} : Options).entityFolder ⟨"uSER"⟩) <+:
      placeOf [] ({} : Options).registry := by decide +kernel
  have there : earlier.find? [] (({} : Options).entityFolder ⟨"uSER"⟩) = some .folder := by
    decide +kernel
  have declared : Entity.find? "model User \x7b id Int \x7d" "uSER" =
      some ⟨⟨"uSER"⟩, "id Int"⟩ := by decide +kernel
  have others : ∀ model ∈ Schema.models "model User \x7b id Int \x7d",
      Text.lowerCase model.name.toList ≠ Text.lowerCase "Post".toList := by decide +kernel
  refine ⟨?_, (generate_effect {}).2 others⟩
  have effect := (@generate_effect {} calm "model User \x7b id Int \x7d" "uSER"
    ⟨earlier, [], 0, [], []⟩).1 rfl extension (fun _ => rfl) outside fun missing =>
      absurd (there.symm.trans missing) (Option.some_ne_none _)
  have ends : (perform calm (({} : Options).generate "model User \x7b id Int \x7d" "uSER").run
      ⟨earlier, [], 0, [], []⟩).1.isOk = true := by decide +kernel
  generalize perform calm (({} : Options).generate "model User \x7b id Int \x7d" "uSER").run
    ⟨earlier, [], 0, [], []⟩ = result at *
  obtain ⟨result, m'⟩ := result
  cases result with
  | error e => cases ends
  | ok report =>
    obtain ⟨entity, artifacts, -, -, -, declared', rendered, -, -, -, -, -, files, -⟩ :=
      effect report m' rfl
    rw [declared] at declared'
    cases declared'
    exact ⟨report, m', artifacts, rfl, rendered, files⟩

end EntityForge.Run.Options

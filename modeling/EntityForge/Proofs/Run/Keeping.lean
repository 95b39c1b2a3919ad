import EntityForge.Proofs.Run.Effect
import EntityForge.Proofs.Run.Registered
import Mathlib

/-!
# The registry survives

A turn empties the folder of its entity and writes files, and neither looks where the registry is.
If the registry is out of the way of both, then however the turn ends, it still holds all that it
held but for white space. `registry_lost` is a registry in the way.
-/

namespace EntityForge.Run.Options

open Disk (placeOf wayOf)
open Machine (perform answer Kept Spares)
open Text (isBlank)

variable {options : Options} {s : Surroundings} {schema requested : String} {m m' : Machine}

/-! ### Folders that stay -/

/-- A folder outside the folder of the entity is one after the turn as well. -/
lemma folder_of_generate (plain : options.scaffolder = none) {result : Except Failure Report}
    (h : perform s (options.generate schema requested).run m = (result, m')) {place : Location}
    (outside : (Entity.find? schema requested).isSome →
      ¬ placeOf m.here (options.entityFolder ⟨requested⟩) <+: place)
    (stands : m.disk.get? place = some .folder) : m'.disk.get? place = some .folder := by
  cases declared : Entity.find? schema requested with
  | none =>
    rw [generate, declared] at h
    cases h
    exact stands
  | some entity =>
    rw [declared] at outside
    have step (r : Request) (n : Machine) (allowed : Allows (options.entityFolder ⟨requested⟩)
        (options.registry :: options.filesOf ⟨requested⟩) (options.scaffolder ≠ none) r)
        (kept : n.here = m.here ∧ n.disk.get? place = some .folder) :
        (answer s r n).2.here = m.here ∧ (answer s r n).2.disk.get? place = some .folder := by
      refine ⟨(Machine.here_answer s r n).trans kept.1, Machine.folder_answer ?_ kept.2⟩
      rw [← kept.1] at outside
      cases r with
      | removeTree path =>
        cases allowed
        exact outside rfl
      | launch command => exact allowed plain
      | _ => trivial
    have run := (options.all_generate schema requested).action.perform step ⟨rfl, stands⟩
    have last : (perform s (options.generate schema requested).run m).2 = m' := by rw [h]
    rw [← last]
    exact run.2

/-! ### The registry -/

/-- However a turn ends, the registry still holds what it held, but for white space, if it lies
outside the folder of the entity and is none of its files. Its path leads to it as before if the
turn has come to its end or the path does not lead through that folder. -/
theorem registry_survives (plain : options.scaffolder = none) {old : String}
    (begins : m.disk.readText m.here options.registry = .ok old)
    (outside : (Entity.find? schema requested).isSome →
      ¬ placeOf m.here (options.entityFolder ⟨requested⟩) <+: placeOf m.here options.registry)
    (apart : (Entity.find? schema requested).isSome → ∀ path ∈ options.filesOf ⟨requested⟩,
      placeOf m.here path ≠ placeOf m.here options.registry)
    {result : Except Failure Report}
    (h : perform s (options.generate schema requested).run m = (result, m')) :
    ∃ new, m'.disk.get? (placeOf m.here options.registry) = some (.file (.text new)) ∧
      (old.toList.filter (!isBlank ·)).Sublist new.toList ∧
      ((∃ report, result = .ok report) ∨ ((Entity.find? schema requested).isSome →
          ∀ stop ∈ wayOf m.here options.registry,
            ¬ placeOf m.here (options.entityFolder ⟨requested⟩) <+: stop) →
        m'.disk.readText m'.here options.registry = .ok new) := by
  obtain ⟨⟨proper, way⟩, there⟩ := Disk.readText_eq_ok.mp begins
  have outside (found : (Entity.find? schema requested).isSome) (place : Location)
      (same : place = placeOf m.here options.registry) :
      ¬ placeOf m.here (options.entityFolder ⟨requested⟩) <+: place := by
    rw [same]
    exact outside found
  cases result with
  | error e =>
    have kept := kept_of_generate_error plain outside apart h
    have still := (kept.file_iff rfl).mpr there
    refine ⟨old, still, List.filter_sublist, ?_⟩
    rintro (⟨report, ended⟩ | clear)
    · cases ended
    · refine Disk.readText_eq_ok.mpr ⟨⟨proper, ?_⟩, ?_⟩
      · rw [kept.1]
        exact fun stop mem =>
          folder_of_generate plain h (fun found => clear found stop mem) (way stop mem)
      · rw [kept.1]
        exact still
  | ok report =>
    obtain ⟨⟨e, failed⟩, -⟩ | ⟨mid, change, kept, last, ended⟩ :=
      kept_until_registry plain outside apart h
    · cases failed
    cases change with
    | error e => cases ended
    | ok change =>
      -- What was read as the registry is what was there when the turn began.
      obtain ⟨document, r, read, registered, -, here, shows⟩ :=
        options.perform_updateRegistry_ok last
      obtain ⟨⟨-, way⟩, there'⟩ := Disk.readText_eq_ok.mp read
      rw [kept.1] at way there' shows here
      cases there'.symm.trans ((kept.file_iff rfl).mpr there)
      have new : m'.disk.get? (placeOf m.here options.registry) =
          some (.file (.text r.document)) := by
        rw [shows, if_pos rfl]
      refine ⟨r.document, new, (Registry.registers_of_register? registered).sublist, fun _ => ?_⟩
      refine Disk.readText_eq_ok.mpr ⟨⟨proper, ?_⟩, ?_⟩
      · rw [here]
        intro stop mem
        have folder := way stop mem
        rw [shows, if_neg, folder]
        rintro rfl
        rw [there'] at folder
        cases folder
      · rw [here]
        exact new

/-- A turn fails while it writes the files of its entity. -/
theorem registry_survives_of_fault :
    ∃ result m' new,
      perform (failing 9) (({} : Options).generate twoModels "uSER").run ⟨two, [], 0, [], []⟩ =
        (result, m') ∧
      result.isOk = false ∧
      m'.disk.readText m'.here ({} : Options).registry = .ok new ∧
      ("imports: []\n".toList.filter (!isBlank ·)).Sublist new.toList := by
  have begins : two.readText [] ({} : Options).registry = .ok "imports: []\n" := by decide +kernel
  have outside : ¬ placeOf [] (({} : Options).entityFolder ⟨"uSER"⟩) <+:
      placeOf [] ({} : Options).registry := by decide +kernel
  have apart : ∀ path ∈ ({} : Options).filesOf ⟨"uSER"⟩,
      placeOf [] path ≠ placeOf [] ({} : Options).registry := by decide +kernel
  have clear : ∀ stop ∈ wayOf [] ({} : Options).registry,
      ¬ placeOf [] (({} : Options).entityFolder ⟨"uSER"⟩) <+: stop := by decide +kernel
  have fails : (perform (failing 9) (({} : Options).generate twoModels "uSER").run
      ⟨two, [], 0, [], []⟩).1.isOk = false := by decide +kernel
  generalize run : perform (failing 9) (({} : Options).generate twoModels "uSER").run
    ⟨two, [], 0, [], []⟩ = taken at *
  obtain ⟨result, m'⟩ := taken
  obtain ⟨new, -, kept, read⟩ := @registry_survives {} (failing 9) twoModels "uSER"
    ⟨two, [], 0, [], []⟩ m' rfl _ begins (fun _ => outside) (fun _ => apart) result run
  exact ⟨result, m', new, rfl, fails, read (.inr fun _ => clear), kept⟩

/-- Options by which the registry lies in the folder of an entity `a`. -/
def registryInside : Options :=
  { outputFolder := "out", registry := "out/a/app.ts", controllerTemplate := none }

/-- A project for these options. -/
def projectInside : Disk :=
  ⟨[(["out"], .folder), (["out", "a"], .folder),
    (["out", "a", "app.ts"], .file (.text "imports: []\n"))]⟩

/-- A registry in the folder of an entity is removed with it. -/
theorem registry_lost :
    registryInside.scaffolder = none ∧
      projectInside.readText [] registryInside.registry = .ok "imports: []\n" ∧
      (perform calm (registryInside.generate "model A \x7b id Int \x7d" "A").run
        ⟨projectInside, [], 0, [], []⟩).2.disk.readText [] registryInside.registry =
          .error .notFound := by
  decide +kernel

end EntityForge.Run.Options

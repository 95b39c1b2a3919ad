import EntityForge.Proofs.Run.Machine
import EntityForge.Run.Batch
import Mathlib

/-!
# Runs as sequences of turns

A run reads the schema and then takes turns. `Turns` is the relation between the machine before and
after a sequence of turns; what holds of runs is proved by induction on it.
-/

namespace EntityForge.Run

open Machine (perform)

/-- Whether a run goes on after a turn that ended in a certain way. -/
def GoesOn (result : Except Failure Report) : Prop :=
  ∀ e, result = .error e → e.isEntityScoped

/-! ### Names of a target -/

namespace Target

/-- The one name that was asked for, or the names of all models in the order of the schema. -/
def wanted (schema : String) : Target → List String
  | .single name => [name]
  | .all => (Schema.models schema).map (·.name)

variable {target : Target} {schema : String}

/-- The names of a schema are those of its models. -/
lemma map_source_names (schema : String) :
    (Schema.names schema).map (·.source) = Target.all.wanted schema := by
  rw [Schema.names, List.map_map]
  rfl

/-- A target stands for the names that are wanted, as long as there are any. -/
lemma names_eq_ok {names : List String} :
    target.names schema = .ok names ↔ names = target.wanted schema ∧ names ≠ [] := by
  cases target with
  | single name =>
    rw [Target.names, wanted, Except.ok.injEq]
    exact ⟨fun h => h ▸ ⟨rfl, List.cons_ne_nil _ _⟩, fun h => h.1.symm⟩
  | all =>
    rw [Target.names, ← map_source_names]
    cases Schema.names schema with
    | nil => exact iff_of_false (fun resolved => by cases resolved) fun h => h.2 h.1
    | cons name rest =>
      rw [Except.ok.injEq]
      exact ⟨fun h => h ▸ ⟨rfl, List.cons_ne_nil _ _⟩, fun h => h.1.symm⟩

/-- Only a schema without models leaves nothing to be done. -/
lemma names_eq_error {e : Failure} :
    target.names schema = .error e ↔ target = .all ∧ Schema.models schema = [] ∧ e = .noModels := by
  cases target with
  | single name => exact iff_of_false nofun nofun
  | all =>
    have empty : Schema.models schema = [] ↔ Schema.names schema = [] := by
      rw [Schema.names, List.map_eq_nil_iff]
    rw [Target.names, empty]
    cases Schema.names schema with
    | nil => simp [eq_comm]
    | cons name rest => simp

end Target

namespace Options

/-- The turns of entities, one after the other, with their outcomes if there was none that ends the
run. -/
inductive Turns (options : Options) (s : Surroundings) (schema : String) :
    List String → Machine → Except Failure (List Outcome) → Machine → Prop where
  | nil {m : Machine} : Turns options s schema [] m (.ok []) m
  | stop {requested : String} {rest : List String} {m m' : Machine} {e : Failure} :
    perform s (options.generate schema requested).run (m.tell (.started requested)) =
      (.error e, m') →
    e.isEntityScoped = false →
    Turns options s schema (requested :: rest) m (.error e) m'
  | next {requested : String} {rest : List String} {m mid m' : Machine}
      {result : Except Failure Report} {more : Except Failure (List Outcome)} :
    perform s (options.generate schema requested).run (m.tell (.started requested)) =
      (result, mid) →
    GoesOn result →
    Turns options s schema rest (mid.tell (.finished ⟨requested, result⟩)) more m' →
    Turns options s schema (requested :: rest) m (more.map (⟨requested, result⟩ :: ·)) m'

variable {options : Options} {s : Surroundings} {schema requested : String} {m m' : Machine}

/-- An attempt ends as the turn does, except that the failure of one entity is an outcome. -/
lemma perform_attempt (m : Machine) : perform s (options.attempt schema requested).run m =
    match perform s (options.generate schema requested).run m with
    | (.ok report, mid) => (.ok ⟨requested, .ok report⟩, mid)
    | (.error e, mid) =>
      if e.isEntityScoped then (.ok ⟨requested, .error e⟩, mid) else (.error e, mid) := by
  rw [attempt, Machine.perform_tryCatch, Machine.perform_bind]
  generalize perform s (options.generate schema requested).run m = result
  obtain ⟨result, mid⟩ := result
  cases result with
  | ok report => rfl
  | error e =>
    simp only
    split_ifs <;> rfl

/-- How the first turn ends says whether there are others. -/
lemma perform_generateEach_cons {rest : List String} {result : Except Failure Report} {mid : Machine}
    (turn : perform s (options.generate schema requested).run (m.tell (.started requested)) =
      (result, mid)) :
    (∀ e, result = .error e → e.isEntityScoped = false →
      perform s (options.generateEach schema (requested :: rest)).run m = (.error e, mid)) ∧
    (GoesOn result → ∀ more m',
      perform s (options.generateEach schema rest).run
        (mid.tell (.finished ⟨requested, result⟩)) = (more, m') →
      perform s (options.generateEach schema (requested :: rest)).run m =
        (more.map (⟨requested, result⟩ :: ·), m')) := by
  have attempt := @perform_attempt options s schema requested (m.tell (.started requested))
  rw [turn] at attempt
  rw [generateEach, Machine.perform_bind, Machine.perform_tell]
  simp only
  rw [Machine.perform_bind]
  constructor
  · rintro e rfl ends
    simp only [attempt, ends]
    rfl
  · intro goesOn more m' others
    have attempt : perform s (options.attempt schema requested).run (m.tell (.started requested)) =
        (.ok ⟨requested, result⟩, mid) := by
      cases result with
      | ok report => exact attempt
      | error e =>
        rw [attempt]
        exact if_pos (goesOn e rfl)
    simp only [attempt]
    rw [Machine.perform_bind, Machine.perform_tell]
    simp only
    rw [Machine.perform_bind, others]
    cases more <;> rfl

/-- Generating entities means taking turns. -/
lemma generateEach_iff {names : List String} {result : Except Failure (List Outcome)} :
    perform s (options.generateEach schema names).run m = (result, m') ↔
      options.Turns s schema names m result m' := by
  constructor
  · intro h
    induction names generalizing m result with
    | nil =>
      cases h
      exact .nil
    | cons requested rest ih =>
      generalize turn : perform s (options.generate schema requested).run
        (m.tell (.started requested)) = taken
      obtain ⟨first, mid⟩ := taken
      obtain ⟨stops, goes⟩ := @perform_generateEach_cons _ _ _ _ _ rest _ _ turn
      by_cases goesOn : GoesOn first
      · rw [goes goesOn _ _ rfl] at h
        cases h
        exact .next turn goesOn (ih rfl)
      · rw [GoesOn, not_forall] at goesOn
        obtain ⟨e, ends⟩ := goesOn
        rw [Classical.not_imp, Bool.not_eq_true] at ends
        rw [stops e ends.1 ends.2] at h
        cases h
        obtain ⟨rfl, ends⟩ := ends
        exact .stop turn ends
  · intro h
    induction h with
    | nil => rfl
    | stop turn ends => exact (perform_generateEach_cons turn).1 _ rfl ends
    | next turn goesOn _ ih => exact (perform_generateEach_cons turn).2 goesOn _ _ ih

/-- Reading the schema leaves the disk as it is. -/
lemma perform_readSchema {result : Except Failure String}
    (h : perform s options.readSchema.run m = (result, m')) :
    m'.disk = m.disk ∧ m'.here = m.here ∧
      ∀ schema, result = .ok schema → m.disk.readText m.here options.schema = .ok schema := by
  rw [readSchema, Machine.perform_bind] at h
  cases result with
  | ok schema =>
    obtain ⟨-, read, rfl⟩ := Machine.perform_readText_ok.mp h
    refine ⟨rfl, rfl, fun _ e => ?_⟩
    cases e
    exact read
  | error e =>
    rw [Machine.perform_readText_error h]
    exact ⟨rfl, rfl, nofun⟩

/-- The machine on which the first of some turns begins. -/
def announced (m : Machine) (names : List String) : Machine :=
  (m.note ⟨.files, .info, "processing entities", [("count", toString names.length)]⟩).tell
    (.resolved names)

/-- A run goes on with the names that its target stands for, and ends as the turns do. -/
lemma perform_run (target : Target) (m : Machine) : perform s (options.run target).run m =
    match perform s options.readSchema.run m with
    | (.error e, mid) => (.error e, mid)
    | (.ok schema, mid) =>
      match target.names schema with
      | .error e => (.error e, mid)
      | .ok names =>
        ((perform s (options.generateEach schema names).run (announced mid names)).1.map Summary.mk,
          (perform s (options.generateEach schema names).run (announced mid names)).2) := by
  rw [run, Machine.perform_bind]
  generalize perform s options.readSchema.run m = taken
  obtain ⟨schema, mid⟩ := taken
  cases schema with
  | error e => rfl
  | ok schema =>
    simp only
    cases target.names schema with
    | error failure => rfl
    | ok names =>
      simp only
      rw [Machine.perform_bind, Machine.perform_note]
      simp only
      rw [Machine.perform_bind, Machine.perform_tell]
      simp only
      rw [Machine.perform_bind, ← announced]
      generalize perform s (options.generateEach schema names).run (announced mid names) = taken
      obtain ⟨outcomes, last⟩ := taken
      cases outcomes <;> rfl

/-- A run that has names to go on with takes their turns; any other leaves the disk as it is. -/
lemma turns_of_run {target : Target} {result : Except Failure Summary}
    (h : perform s (options.run target).run m = (result, m')) :
    (m'.disk = m.disk ∧ m'.here = m.here ∧ ∃ e, result = .error e) ∨
      ∃ schema names begun outcomes, m.disk.readText m.here options.schema = .ok schema ∧
        target.names schema = .ok names ∧ begun.disk = m.disk ∧ begun.here = m.here ∧
        options.Turns s schema names begun outcomes m' ∧ result = outcomes.map Summary.mk := by
  rw [perform_run] at h
  generalize reading : perform s options.readSchema.run m = taken at h
  obtain ⟨schema, mid⟩ := taken
  obtain ⟨disk, here, read⟩ := perform_readSchema reading
  cases schema with
  | error e =>
    cases h
    exact .inl ⟨disk, here, e, rfl⟩
  | ok schema =>
    simp only at h
    cases resolved : target.names schema with
    | error failure =>
      rw [resolved] at h
      cases h
      exact .inl ⟨disk, here, failure, rfl⟩
    | ok names =>
      rw [resolved] at h
      cases h
      exact .inr ⟨schema, names, announced mid names, _, read schema rfl, resolved, by exact disk,
        by exact here, generateEach_iff.mp rfl, rfl⟩

/-- A run takes the turns of the names that its target stands for. -/
lemma exists_perform_run {target : Target} {names : List String}
    (calm : s.fault m.operations = none)
    (read : m.disk.readText m.here options.schema = .ok schema)
    (resolved : target.names schema = .ok names) :
    ∃ begun : Machine, begun.disk = m.disk ∧ begun.here = m.here ∧ ∀ outcomes m',
      options.Turns s schema names begun outcomes m' →
        perform s (options.run target).run m = (outcomes.map Summary.mk, m') := by
  have reading : perform s options.readSchema.run m = (.ok schema,
      (m.note ⟨.files, .debug, "reading schema", [("path", options.schema)]⟩).count) :=
    Machine.perform_bind_ok.mpr ⟨(), _, rfl, Machine.perform_readText_ok.mpr ⟨calm, read, rfl⟩⟩
  refine ⟨announced (m.note ⟨.files, .debug, "reading schema", [("path", options.schema)]⟩).count
    names, rfl, rfl, fun outcomes m' turns => ?_⟩
  rw [perform_run, reading]
  simp only [resolved]
  rw [generateEach_iff.mpr turns]

end Options

end EntityForge.Run

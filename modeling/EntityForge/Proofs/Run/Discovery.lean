import EntityForge.CommandLine.Program
import EntityForge.Proofs.Run.Trace
import EntityForge.Proofs.Schema.Lookup
import Mathlib

/-!
# Runs over all models

A run over all models asks for nothing but names that the schema declares, so no turn of it can miss
its model. It is given up for a reason that does not depend on the name, or generates every entity.
-/

namespace EntityForge.Run

open Machine (perform)

/-! ### Failures of a turn -/

/-- Whether a failure has nothing to do with the name of an entity: the system, a template or the
scaffolder failed, or there is no model at all. -/
def IsFatal : Failure → Prop
  | .noModels => True
  | .system _ _ => True
  | .template _ _ => True
  | .command _ _ => True
  | _ => False

/-- Whether a failure ends the turns of some names on a machine as it is then. The registry is to
blame for a failure of its own if the text that it holds is one in which the entity of such a name
cannot be registered. -/
inductive Options.Ends (options : Options) (names : List String) (m : Machine) : Failure → Prop where
  | fatal {e : Failure} : IsFatal e → options.Ends names m e
  | cut {name document : String} :
    name ∈ names →
    m.disk.readText m.here options.registry = .ok document →
    Registry.register? options.importRoot document ⟨name⟩ = none →
    options.Ends names m (.splitCharacter options.registry)

section

variable {Q : Failure → Prop} {path : String} (system : ∀ cause, Q (.system path cause))

include system

/-- Reading a text fails with what the system says about its path. -/
lemma raises_readText : (Job.readText path).Raises Q :=
  (Job.raises_ask _).bind fun reply => Job.raises_ofReply system reply

/-- Writing a text fails with what the system says about its path. -/
lemma raises_writeText (text : String) : (Job.writeText path text).Raises Q :=
  (Job.raises_ask _).bind fun reply => Job.raises_ofReply system reply

/-- Making folders fails with what the system says about their path. -/
lemma raises_makeFolders : (Job.makeFolders path).Raises Q :=
  (Job.raises_ask _).bind fun reply => Job.raises_ofReply system reply

/-- Removing a folder fails with what the system says about its path. -/
lemma raises_removeTree : (Job.removeTree path).Raises Q :=
  (Job.raises_ask _).bind fun reply => Job.raises_ofReply system reply

/-- Renewing a folder fails with what the system says about its path. -/
lemma raises_renewFolder : (renewFolder path).Raises Q := by
  apply (Job.raises_ask _).bind
  intro found
  cases found with
  | false => exact raises_makeFolders system
  | true =>
    apply (Job.raises_ask _).bind
    intro
    apply (raises_removeTree system).bind
    exact fun _ => raises_makeFolders system

end

/-- What the system says about a path ends a run. -/
lemma isFatal_system (path : String) (cause : SystemError) : IsFatal (.system path cause) :=
  trivial

/-- A file is not written if the system does not make the folder above it or write it. -/
lemma raises_writeFile (path text : String) : (writeFile path text).Raises IsFatal := by
  rw [writeFile]
  cases Path.parent? path with
  | none => exact raises_writeText (isFatal_system path) text
  | some folder =>
    apply (raises_makeFolders (isFatal_system folder)).bind
    exact fun _ => raises_writeText (isFatal_system path) text

/-- The scaffolder fails with its command. -/
lemma raises_scaffold (place : String) (command : List String) (slug : String)
    (kinds : List String) : (scaffold place command slug kinds).Raises IsFatal := by
  induction kinds with
  | nil => exact Job.raises_pure ()
  | cons kind rest ih =>
    apply (Job.raises_ask _).bind
    intro
    apply (Job.raises_ask _).bind
    intro reply
    cases reply with
    | ok => exact ih
    | error fault => exact Job.raises_throw trivial

namespace Options

variable {options : Options}

/-- Running the scaffolder fails with its command. -/
lemma raises_runScaffolder (name : EntityName) : (options.runScaffolder name).Raises IsFatal := by
  rw [runScaffolder]
  cases options.scaffolder with
  | none => exact Job.raises_pure ()
  | some scaffolder =>
    simp only
    split_ifs
    · exact Job.raises_pure ()
    · exact raises_scaffold _ _ _ _

/-- The controller fails with the files that are read and written for it. -/
lemma raises_writeController (name : EntityName) :
    (options.writeController name).Raises IsFatal := by
  rw [writeController]
  cases options.controllerTemplate with
  | none => exact Job.raises_pure none
  | some template =>
    apply (Job.raises_ask _).bind
    intro found
    cases found with
    | false => exact (Job.raises_ask _).bind fun _ => Job.raises_pure none
    | true =>
      apply (raises_readText (isFatal_system template)).bind
      intro text
      simp only
      exact (raises_writeFile _ _).bind fun _ => Job.raises_pure _

/-- The artifacts fail with the files that they are written to. -/
lemma raises_writeArtifacts (artifacts : List Artifact) :
    (options.writeArtifacts artifacts).Raises IsFatal := by
  induction artifacts with
  | nil => exact Job.raises_pure []
  | cons artifact rest ih =>
    apply (raises_writeFile _ _).bind
    intro
    apply (Job.raises_ask _).bind
    intro
    exact ih.bind fun _ => Job.raises_pure _

/-- Rendering fails with a template. -/
lemma raises_render (entity : Entity) : (options.render entity).Raises IsFatal := by
  have quiet (lines : List Field.Malformed) : (noteMalformed lines).Raises IsFatal := by
    induction lines with
    | nil => exact Job.raises_pure ()
    | cons line rest ih => exact (Job.raises_ask _).bind fun _ => ih
  apply (quiet _).bind
  intro
  cases entity.artifacts options.settings with
  | ok artifacts => exact Job.raises_pure artifacts
  | error fault => exact Job.raises_throw trivial

section

variable {s : Surroundings} {m m' : Machine} {names : List String} {e : Failure}

/-- A registration fails with the file of the registry, or the registry is left with a text in which
the entity cannot be registered. -/
lemma ends_updateRegistry {name : String} (mem : name ∈ names)
    (h : perform s (options.updateRegistry ⟨name⟩).run m = (.error e, m')) :
    options.Ends names m' e := by
  rw [updateRegistry] at h
  obtain fatal | ⟨document, mid, read, h⟩ :=
    (raises_readText (isFatal_system options.registry)).of_bind h
  · exact .fatal fatal
  obtain ⟨-, there, rfl⟩ := Machine.perform_readText_ok.mp read
  cases registered : Registry.register? options.importRoot document ⟨name⟩ with
  | none =>
    rw [registered] at h
    cases h
    exact .cut mem there registered
  | some r =>
    rw [registered] at h
    refine .fatal (Job.Raises.perform ?_ h)
    have ends : (pure ⟨r.importAdded, r.entryAdded, r.listFound⟩ : Job RegistryChange).Raises
        IsFatal := Job.raises_pure _
    have write := raises_writeText (isFatal_system options.registry) r.document
    simp only
    split_ifs
    · exact (Job.raises_ask _).bind fun _ => write.bind fun _ => (Job.raises_ask _).bind fun _ => ends
    · exact (Job.raises_ask _).bind fun _ => (Job.raises_ask _).bind fun _ => ends
    · exact write.bind fun _ => (Job.raises_ask _).bind fun _ => ends
    · exact (Job.raises_ask _).bind fun _ => ends

/-- The turn of a declared entity does not miss its model. -/
lemma ends_generate {schema requested : String} (mem : requested ∈ names)
    (declared : (Entity.find? schema requested).isSome)
    (h : perform s (options.generate schema requested).run m = (.error e, m')) :
    options.Ends names m' e := by
  obtain ⟨entity, found⟩ := Option.isSome_iff_exists.mp declared
  obtain ⟨same, -⟩ := Entity.isWord_of_find? found
  rw [generate, found] at h
  simp only [same] at h
  -- Every step but the last one fails for a reason that does not depend on the name.
  obtain fatal | ⟨_, _, -, h⟩ := (raises_render entity).of_bind h
  · exact .fatal fatal
  obtain fatal | ⟨_, _, -, h⟩ := (Job.raises_ask _).of_bind h
  · exact .fatal fatal
  obtain fatal | ⟨_, _, -, h⟩ := (raises_renewFolder (isFatal_system _)).of_bind h
  · exact .fatal fatal
  obtain fatal | ⟨_, _, -, h⟩ := (raises_runScaffolder _).of_bind h
  · exact .fatal fatal
  obtain fatal | ⟨_, _, -, h⟩ := (raises_writeController _).of_bind h
  · exact .fatal fatal
  obtain fatal | ⟨_, _, -, h⟩ := (raises_writeArtifacts _).of_bind h
  · exact .fatal fatal
  obtain failed | ⟨_, _, -, h⟩ := Machine.perform_bind_error.mp h
  · exact ends_updateRegistry mem failed
  · cases h

/-- What ends a run concerns no entity alone. -/
lemma Ends.isEntityScoped (h : options.Ends names m e) : e.isEntityScoped = false := by
  cases h with
  | cut => rfl
  | fatal fatal =>
    cases e with
    | modelNotFound => exact fatal.elim
    | _ => rfl

end

end Options

/-! ### Turns of declared entities -/

namespace Options

variable {options : Options} {s : Surroundings} {schema : String} {names : List String}
  {m m' : Machine}

/-- Every turn that declared entities take to its end generates its entity. -/
lemma Turns.succeeded {done : List Outcome}
    (turns : options.Turns s schema names m (.ok done) m')
    (declared : ∀ name ∈ names, (Entity.find? schema name).isSome) :
    ∀ o ∈ done, o.succeeded = true := by
  generalize ends : Except.ok done = result at turns
  induction turns generalizing done with
  | nil =>
    cases ends
    simp
  | stop => cases ends
  | @next requested rest m mid m' result more turn goesOn _ ih =>
    obtain ⟨here, others⟩ := List.forall_mem_cons.mp declared
    cases more with
    | error e => cases ends
    | ok done =>
      cases ends
      refine List.forall_mem_cons.mpr ⟨?_, ih others rfl⟩
      cases result with
      | ok report => rfl
      | error e =>
        have alone := goesOn e rfl
        rw [(ends_generate (List.mem_singleton_self requested) here turn).isEntityScoped] at alone
        cases alone

/-- Turns of declared entities are given up only for what ends a run. -/
lemma Turns.ends {e : Failure} (turns : options.Turns s schema names m (.error e) m')
    (declared : ∀ name ∈ names, (Entity.find? schema name).isSome) : options.Ends names m' e := by
  obtain ⟨done, mid, requested, rest, rfl, -, fails, -⟩ := turns.exists_stop
  exact ends_generate (by simp) (declared requested (by simp)) fails

/-- Turns of declared entities show no entity that was not generated. -/
lemma Turns.exists_shown {result : Except Failure (List Outcome)}
    (turns : options.Turns s schema names m result m')
    (declared : ∀ name ∈ names, (Entity.find? schema name).isSome) :
    ∃ shown, m'.events = m.events ++ shown ∧
      ∀ outcome, .finished outcome ∈ shown → outcome.succeeded = true := by
  have finished {done : List Outcome} {outcome : Outcome}
      (mem : .finished outcome ∈ done.flatMap Outcome.events) : outcome ∈ done := by
    rw [← filterMap_outcome?_flatMap done]
    exact List.mem_filterMap.mpr ⟨_, mem, rfl⟩
  cases result with
  | ok done =>
    obtain ⟨-, -, events⟩ := turns.events_eq
    exact ⟨_, events, fun outcome mem => turns.succeeded declared outcome (finished mem)⟩
  | error e =>
    obtain ⟨done, mid, requested, rest, rfl, turns, fails, -⟩ := turns.exists_stop
    obtain ⟨-, -, events⟩ := turns.events_eq
    refine ⟨done.flatMap Outcome.events ++ [.started requested], ?_, fun outcome mem => ?_⟩
    · rw [events_generate fails, Machine.events_tell, events, List.append_assoc]
    · have mem : .finished outcome ∈ done.flatMap Outcome.events := by simpa using mem
      exact turns.succeeded (fun name here => declared name (List.mem_append_left _ here)) outcome
        (finished mem)

/-- Every name that a run over all models has to go on with is declared. -/
lemma isSome_find?_of_wanted {name : String} (mem : name ∈ Target.all.wanted schema) :
    (Entity.find? schema name).isSome := by
  obtain ⟨model, here, rfl⟩ := List.mem_map.mp mem
  exact Entity.isSome_find? here

end Options

/-! ### The exit code -/

/-- The exit code after a run. -/
def exitCode : Except Failure Summary → Nat
  | .ok summary => if summary.failed = 0 then 0 else 1
  | .error (.splitCharacter _) => 101
  | .error _ => 1

/-- The exit code is that of the run. -/
lemma perform_generate (options : Options) (s : Surroundings) (target : Target) (m : Machine) :
    (perform s (CommandLine.generate options target) m).1 =
      exitCode (perform s (options.run target).run m).1 := by
  rw [CommandLine.generate]
  unfold perform
  rw [Action.perform_bind]
  generalize Action.perform (Machine.answer s) (options.run target).run m = taken
  obtain ⟨result, last⟩ := taken
  cases result with
  | ok summary =>
    rw [exitCode]
    by_cases h : summary.failed = 0
    · simp only [h]
      rfl
    · simp only [h]
      rfl
  | error e => cases e <;> rfl

/-! ### The whole run -/

namespace Options

/-- Whether the registry that a run has left holds a text in which one of the models that the run has
read cannot be registered. -/
def CannotRegister (options : Options) (s : Surroundings) (m m' : Machine) : Prop :=
  ∃ schema begun model document,
    perform s options.readSchema.run m = (.ok schema, begun) ∧
    model ∈ Schema.models schema ∧
    m'.disk.readText m'.here options.registry = .ok document ∧
    Registry.register? options.importRoot document ⟨model.name⟩ = none

/-- A run over all models that has led to a result: it showed no entity that was not generated, it
records none that failed, and it was given up only for what ends a run. -/
structure Discovers (options : Options) (s : Surroundings) (m m' : Machine)
    (result : Except Failure Summary) : Prop where
  shown : ∃ shown, m'.events = m.events ++ shown ∧
    ∀ outcome, .finished outcome ∈ shown → outcome.succeeded = true
  complete : ∀ summary, result = .ok summary → ∀ o ∈ summary.outcomes, o.succeeded = true
  ends : ∀ e, result = .error e →
    IsFatal e ∨ e = .splitCharacter options.registry ∧ options.CannotRegister s m m'

section

variable {options : Options} {s : Surroundings} {m begun m' : Machine}

/-- A run that is given up before the first turn has shown nothing. -/
lemma Discovers.of_isFatal {e : Failure} (quiet : m'.events = m.events) (fatal : IsFatal e) :
    options.Discovers s m m' (.error e) where
  shown := ⟨[], by rw [quiet, List.append_nil], fun _ mem => absurd mem List.not_mem_nil⟩
  complete _ same := nomatch same
  ends _ same := .inl (Except.error.inj same ▸ fatal)

/-- A run that takes the turns of the models that it has read ends as the turns do. -/
lemma Discovers.of_turns {schema : String} {outcomes : Except Failure (List Outcome)}
    (reading : perform s options.readSchema.run m = (.ok schema, begun))
    (turns : options.Turns s schema (Target.all.wanted schema)
      (announced begun (Target.all.wanted schema)) outcomes m') :
    options.Discovers s m m' (outcomes.map Summary.mk) := by
  have declared (name : String) (mem : name ∈ Target.all.wanted schema) :=
    isSome_find?_of_wanted mem
  constructor
  case shown =>
    obtain ⟨shown, events, all⟩ := turns.exists_shown declared
    refine ⟨.resolved (Target.all.wanted schema) :: shown, ?_, fun outcome mem => ?_⟩
    · rw [events, announced, Machine.events_tell, Machine.events_note, events_readSchema reading,
        List.append_assoc]
      rfl
    · exact all outcome (by simpa using mem)
  case complete =>
    rintro summary same
    cases outcomes with
    | ok done => exact Except.ok.inj same ▸ turns.succeeded declared
    | error e => cases same
  case ends =>
    rintro e same
    cases outcomes with
    | ok done => cases same
    | error e =>
      cases same
      cases turns.ends declared with
      | fatal fatal => exact .inl fatal
      | cut mem there unregistered =>
        obtain ⟨model, here, rfl⟩ := List.mem_map.mp mem
        exact .inr ⟨rfl, schema, begun, model, _, reading, here, there, unregistered⟩

/-- How a run over all models ends, and what it has shown until then. -/
lemma discovers_of_run {result : Except Failure Summary}
    (h : perform s (options.run .all).run m = (result, m')) : options.Discovers s m m' result := by
  rw [perform_run] at h
  generalize reading : perform s options.readSchema.run m = taken at h
  obtain ⟨schema, begun⟩ := taken
  have quiet := events_readSchema reading
  cases schema with
  | error e =>
    cases h
    have raises : options.readSchema.Raises IsFatal :=
      (Job.raises_ask _).bind fun _ => raises_readText (isFatal_system options.schema)
    exact .of_isFatal quiet (raises.perform reading)
  | ok schema =>
    simp only at h
    cases resolved : Target.all.names schema with
    | error failure =>
      rw [resolved] at h
      obtain ⟨rfl, rfl⟩ := Prod.mk.inj h
      obtain ⟨-, -, rfl⟩ := Target.names_eq_error.mp resolved
      exact .of_isFatal quiet trivial
    | ok names =>
      rw [resolved] at h
      simp only at h
      obtain ⟨rfl, -⟩ := Target.names_eq_ok.mp resolved
      obtain ⟨rfl, rfl⟩ := Prod.mk.inj h
      exact .of_turns reading (generateEach_iff.mp rfl)

end

/-- Every model of a schema is found under its own name, and it is the first one with that name that
is found. So a run over all models records no failure of an entity: it generates all of them and the
program ends well, or it is given up, and then the program does not end well. If the registry is to
blame for that, it is left with a text in which one of the models cannot be registered. -/
theorem run_all_complete (options : Options) (s : Surroundings) (m : Machine) :
    (∀ schema front model back, Schema.models schema = front ++ model :: back →
      ∃ body, Schema.body? schema model.name = some body ∧
        ((∀ earlier ∈ front,
            Text.lowerCase earlier.name.toList ≠ Text.lowerCase model.name.toList) →
          body = String.ofList (Text.trim model.body.toList))) ∧
    (∃ shown, (perform s (options.run .all).run m).2.events = m.events ++ shown ∧
      ∀ outcome, .finished outcome ∈ shown → outcome.succeeded = true) ∧
    match perform s (options.run .all).run m with
    | (.ok summary, _) =>
      summary.isSuccess = true ∧ (perform s (CommandLine.generate options .all) m).1 = 0
    | (.error (.splitCharacter path), m') =>
      path = options.registry ∧ options.CannotRegister s m m' ∧
        (perform s (CommandLine.generate options .all) m).1 = 101
    | (.error e, _) => IsFatal e ∧ (perform s (CommandLine.generate options .all) m).1 = 1 := by
  refine ⟨fun schema front model back split => ?_, ?_⟩
  · obtain ⟨body, found⟩ := Option.isSome_iff_exists.mp
      (Schema.isSome_body? (split ▸ List.mem_append_right front List.mem_cons_self))
    refine ⟨body, found, fun first => ?_⟩
    rw [Schema.body?_of_append split rfl first] at found
    exact (Option.some.inj found).symm
  · rw [perform_generate]
    generalize h : perform s (options.run .all).run m = taken
    obtain ⟨result, last⟩ := taken
    obtain ⟨shown, complete, ends⟩ := discovers_of_run h
    refine ⟨shown, ?_⟩
    cases result with
    | ok summary =>
      have success : summary.isSuccess = true := List.all_eq_true.mpr (complete summary rfl)
      exact ⟨success, if_pos (summary.isSuccess_iff.mp success)⟩
    | error e =>
      obtain fatal | ⟨rfl, registry⟩ := ends e rfl
      · cases e with
        | splitCharacter path => exact fatal.elim
        | _ => exact ⟨fatal, rfl⟩
      · exact ⟨rfl, registry, rfl⟩

end Options

end EntityForge.Run

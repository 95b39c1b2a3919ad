import EntityForge.Proofs.Run.Batch
import EntityForge.Proofs.Run.Confinement
import Mathlib

/-!
# The events of a run

What a run shows, what it answers with and what it has done tell the same story. A run that goes to
its end shows each turn twice, when it begins and when it is over. A run that is given up shows the
beginning of the turn in which that happens, and nothing after it.
-/

namespace EntityForge.Run

open Machine (perform)

/-! ### Events -/

/-- The event that is shown, if it is one. -/
def Output.event? : Output → Option Event
  | .event e => some e
  | _ => none

/-- The events that a machine has shown. -/
def Machine.events (m : Machine) : List Event :=
  m.shown.filterMap Output.event?

/-- The events of a turn that is over. -/
def Outcome.events (outcome : Outcome) : List Event :=
  [.started outcome.requested, .finished outcome]

/-- The outcome that an event tells of. -/
def Event.outcome? : Event → Option Outcome
  | .finished outcome => some outcome
  | _ => none

namespace Machine

variable {s : Surroundings} {m : Machine}

/-- Notes are no events. -/
@[simp]
lemma events_note (m : Machine) (line : Log.Line) : (m.note line).events = m.events := rfl

/-- What was told comes last. -/
@[simp]
lemma events_tell (m : Machine) (event : Event) : (m.tell event).events = m.events ++ [event] := by
  rw [events, tell, List.filterMap_append]
  rfl

/-- Whether a request shows no event. -/
def IsSilent : Request → Prop
  | .display (.event _) => False
  | _ => True

/-- What a program prints is no event. -/
lemma events_answer {r : Request} (silent : IsSilent r) : (answer s r m).2.events = m.events := by
  cases r with
  | isPresent path =>
    simp only [answer, looking]
    split <;> rfl
  | isFile path =>
    simp only [answer, looking]
    split <;> rfl
  | readText path =>
    simp only [answer, reading]
    split <;> rfl
  | writeText path text =>
    simp only [answer, changing]
    split <;> rfl
  | removeTree path =>
    simp only [answer, changing]
    split <;> rfl
  | makeFolders path =>
    simp only [answer, making]
    split <;> rfl
  | launch command =>
    simp only [answer, launching]
    split
    · rfl
    split
    · simp [events, Output.event?]
    · rfl
    · rfl
  | note line => rfl
  | display output =>
    cases output with
    | event event => exact silent.elim
    | text s => simp [answer, events, Output.event?]
    | complaint s => simp [answer, events, Output.event?]
    | printed s => simp [answer, events, Output.event?]

end Machine

namespace Options

variable {options : Options} {s : Surroundings} {schema requested : String} {m m' : Machine}

open Machine (IsSilent)

/-- The events are shown by the run and not by its turns. -/
lemma events_generate {result : Except Failure Report}
    (h : perform s (options.generate schema requested).run m = (result, m')) :
    m'.events = m.events := by
  have silent : (options.generate schema requested).All IsSilent := by
    have notes (line : Log.Line) : IsSilent (.note line) := trivial
    have writes (path text : String) : (writeFile path text).All IsSilent :=
      all_writeFile (fun _ _ => trivial) trivial
    apply options.all_generate_of notes
    intro entity artifacts _ _
    exact ⟨all_renewFolder notes trivial trivial trivial,
      options.all_runScaffolder _ notes fun _ _ => trivial,
      options.all_writeController _ notes (fun _ _ => ⟨trivial, trivial⟩) (writes _),
      options.all_writeArtifacts notes fun a _ => writes _ a.content,
      options.all_updateRegistry _ notes trivial fun _ => trivial⟩
  have same : (perform s (options.generate schema requested).run m).2.events = m.events := by
    apply silent.action.perform (I := fun n : Machine => n.events = m.events)
    · intro r n silent same
      exact (Machine.events_answer silent).trans same
    · rfl
  rwa [h] at same

/-- Reading the schema shows no event. -/
lemma events_readSchema {result : Except Failure String}
    (h : perform s options.readSchema.run m = (result, m')) : m'.events = m.events := by
  rw [readSchema, Machine.perform_bind] at h
  cases result with
  | ok schema =>
    obtain ⟨-, -, rfl⟩ := Machine.perform_readText_ok.mp h
    rfl
  | error e =>
    rw [Machine.perform_readText_error h]
    rfl

/-! ### Turns -/

/-- Turns that all came to their end: the failures among them concern one entity each, and what was
shown is the beginning and the end of each turn. -/
lemma Turns.events_eq {names : List String} {done : List Outcome}
    (turns : options.Turns s schema names m (.ok done) m') :
    names = done.map (·.requested) ∧ (∀ o ∈ done, GoesOn o.result) ∧
      m'.events = m.events ++ done.flatMap Outcome.events := by
  generalize ends : Except.ok done = result at turns
  induction turns generalizing done with
  | nil =>
    cases ends
    simp
  | stop => cases ends
  | @next requested rest m mid m' result more turn goesOn _ ih =>
    cases more with
    | error e => cases ends
    | ok others =>
      cases ends
      obtain ⟨names, go, events⟩ := ih rfl
      refine ⟨congrArg (requested :: ·) names, List.forall_mem_cons.mpr ⟨goesOn, go⟩, ?_⟩
      rw [events, Machine.events_tell, events_generate turn, Machine.events_tell]
      simp [Outcome.events]

/-- Turns that were given up: some came to their end, and then there was one that failed. -/
lemma Turns.exists_stop {names : List String} {e : Failure}
    (turns : options.Turns s schema names m (.error e) m') :
    ∃ (done : List Outcome) (mid : Machine) (requested : String) (rest : List String),
      names = done.map (·.requested) ++ requested :: rest ∧
      options.Turns s schema (done.map (·.requested)) m (.ok done) mid ∧
      perform s (options.generate schema requested).run (mid.tell (.started requested)) =
        (.error e, m') ∧
      e.isEntityScoped = false := by
  generalize ends : Except.error e = result at turns
  induction turns with
  | nil => cases ends
  | @stop requested rest m m' e turn fatal =>
    cases ends
    exact ⟨[], m, requested, rest, rfl, .nil, turn, fatal⟩
  | @next requested rest m mid m' result more turn goesOn _ ih =>
    cases more with
    | ok others => cases ends
    | error e =>
      cases ends
      obtain ⟨done, last, failed, others, names, turns, fails, fatal⟩ := ih rfl
      refine ⟨⟨requested, result⟩ :: done, last, failed, others, ?_, ?_, fails, fatal⟩
      · exact congrArg (requested :: ·) names
      · exact .next turn goesOn turns

end Options

/-! ### Summaries -/

namespace Summary

variable (summary : Summary)

/-- Every outcome is a success or a failure. -/
lemma succeeded_add_failed : summary.succeeded + summary.failed = summary.outcomes.length :=
  Nat.add_sub_cancel' List.countP_le_length

/-- All is well if nothing failed. -/
lemma isSuccess_iff : summary.isSuccess = true ↔ summary.failed = 0 := by
  have le : summary.succeeded ≤ summary.outcomes.length := List.countP_le_length
  have all : summary.succeeded = summary.outcomes.length ↔ ∀ o ∈ summary.outcomes, o.succeeded :=
    List.countP_eq_length
  rw [isSuccess, List.all_eq_true, ← all, failed]
  omega

end Summary

/-- The outcomes that were shown are those of the turns. -/
lemma filterMap_outcome?_flatMap (done : List Outcome) :
    (done.flatMap Outcome.events).filterMap Event.outcome? = done := by
  induction done with
  | nil => rfl
  | cons o rest ih => exact congrArg (o :: ·) ih

/-! ### The whole run -/

namespace Options

/-- A run that cannot read the schema, or has no names to go on with, shows nothing. Any other shows
the names, and then the beginning and the end of each turn. If all turns come to their end, the run
answers with their outcomes; if not, it answers with the failure of the first turn that does not
concern its entity alone, of which it has shown the beginning, and no turn is taken after that. -/
theorem run_events (options : Options) (s : Surroundings) (target : Target) (m : Machine) :
    match perform s options.readSchema.run m with
    | (.error e, m') =>
      perform s (options.run target).run m = (.error e, m') ∧ m'.events = m.events
    | (.ok schema, begun) =>
      match target.names schema with
      | .error e =>
        perform s (options.run target).run m = (.error e, begun) ∧ begun.events = m.events
      | .ok names =>
        names = target.wanted schema ∧
        ∃ (first mid : Machine) (done : List Outcome),
          first.disk = m.disk ∧ first.here = m.here ∧
          first.events = m.events ++ [.resolved names] ∧
          options.Turns s schema (done.map (·.requested)) first (.ok done) mid ∧
          mid.events = m.events ++ .resolved names :: done.flatMap Outcome.events ∧
          (∀ o ∈ done, GoesOn o.result) ∧
          ((perform s (options.run target).run m = (.ok ⟨done⟩, mid) ∧
              done.map (·.requested) = names ∧
              done = (mid.events.drop m.events.length).filterMap Event.outcome? ∧
              (⟨done⟩ : Summary).succeeded + (⟨done⟩ : Summary).failed = names.length ∧
              (⟨done⟩ : Summary).failures = done.filter (!·.succeeded) ∧
              ((⟨done⟩ : Summary).isSuccess = true ↔ (⟨done⟩ : Summary).failed = 0)) ∨
            ∃ requested rest e m',
              perform s (options.run target).run m = (.error e, m') ∧
              e.isEntityScoped = false ∧
              names = done.map (·.requested) ++ requested :: rest ∧
              perform s (options.generate schema requested).run (mid.tell (.started requested)) =
                (.error e, m') ∧
              m'.events = mid.events ++ [.started requested]) := by
  rw [perform_run]
  generalize reading : perform s options.readSchema.run m = taken
  obtain ⟨schema, begun⟩ := taken
  have quiet := events_readSchema reading
  obtain ⟨disk, here, -⟩ := perform_readSchema reading
  cases schema with
  | error e => exact ⟨rfl, quiet⟩
  | ok schema =>
    simp only
    cases resolved : target.names schema with
    | error failure => exact ⟨rfl, quiet⟩
    | ok names =>
      simp only
      have begins : (announced begun names).events = m.events ++ [.resolved names] := by
        rw [announced, Machine.events_tell, Machine.events_note, quiet]
      refine ⟨(Target.names_eq_ok.mp resolved).1, announced begun names, ?_⟩
      generalize taking : perform s (options.generateEach schema names).run
        (announced begun names) = taken
      obtain ⟨outcomes, last⟩ := taken
      have turns := generateEach_iff.mp taking
      cases outcomes with
      | ok done =>
        obtain ⟨rfl, go, events⟩ := turns.events_eq
        rw [begins, List.append_assoc] at events
        refine ⟨last, done, disk, here, begins, turns, events, go, .inl ⟨rfl, rfl, ?_, ?_, rfl,
          Summary.isSuccess_iff _⟩⟩
        · rw [events, List.drop_left]
          exact (filterMap_outcome?_flatMap done).symm
        · rw [List.length_map]
          exact Summary.succeeded_add_failed ⟨done⟩
      | error e =>
        obtain ⟨done, mid, requested, rest, names, turns, fails, fatal⟩ := turns.exists_stop
        obtain ⟨-, go, events⟩ := turns.events_eq
        rw [begins, List.append_assoc] at events
        refine ⟨mid, done, disk, here, begins, turns, events, go,
          .inr ⟨requested, rest, e, last, rfl, fatal, names, fails, ?_⟩⟩
        rw [events_generate fails, Machine.events_tell]

end Options

end EntityForge.Run

import EntityForge.EntityName
import EntityForge.Failure

/-!
# Reports of a run

What a run says about each entity while it goes on, and about all of them at its end.
-/

namespace EntityForge.Run

/-- The entities that a run is for. -/
inductive Target where
  | single (name : String)
  | all
  deriving DecidableEq, Repr

/-- What became of the registry. -/
structure RegistryChange where
  importAdded : Bool
  entryAdded : Bool
  listFound : Bool
  deriving DecidableEq, Repr

/-- What was written for an entity: the path and the description of each artifact, and the path of
the controller if there is one. -/
structure Report where
  name : EntityName
  files : List (String × String)
  controller : Option String
  registry : RegistryChange
  deriving DecidableEq, Repr

/-- What became of one entity, under the name it was asked for by. -/
structure Outcome where
  requested : String
  result : Except Failure Report

/-- Whether the entity was generated. -/
def Outcome.succeeded (outcome : Outcome) : Bool :=
  match outcome.result with
  | .ok _ => true
  | .error _ => false

/-- The outcomes of a run that came to its end, in their order. -/
structure Summary where
  outcomes : List Outcome

namespace Summary

/-- Whether every entity was generated. -/
def isSuccess (summary : Summary) : Bool :=
  summary.outcomes.all (·.succeeded)

/-- The outcomes of the entities that were not generated. -/
def failures (summary : Summary) : List Outcome :=
  summary.outcomes.filter fun o => !o.succeeded

/-- The number of entities that were generated. -/
def succeeded (summary : Summary) : Nat :=
  summary.outcomes.countP (·.succeeded)

/-- The number of entities that were not generated. -/
def failed (summary : Summary) : Nat :=
  summary.outcomes.length - summary.succeeded

end Summary

/-- What happens in a run. -/
inductive Event where
  /-- These entities are going to be generated. -/
  | resolved (names : List String)
  /-- The turn of an entity begins. -/
  | started (name : String)
  /-- The turn of an entity is over. -/
  | finished (outcome : Outcome)

end EntityForge.Run

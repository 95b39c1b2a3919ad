import EntityForge.Run.Entity

/-!
# Runs

A run reads the schema once and generates its entities one after the other, each to its end before
the next begins. A name that the schema does not declare is recorded and the run goes on; any other
failure ends it.
-/

namespace EntityForge.Run

/-- The names that a target stands for: the one that was asked for, or all that the schema
declares. -/
def Target.names (target : Target) (schema : String) : Except Failure (List String) :=
  match target with
  | .single name => .ok [name]
  | .all =>
    match Schema.names schema with
    | [] => .error .noModels
    | names => .ok (names.map (·.source))

namespace Options

variable (options : Options)

/-- The text of the schema. -/
def readSchema : Job String := do
  Job.note .debug "reading schema" [("path", options.schema)]
  Job.readText options.schema

/-- Generates one entity and records a failure that concerns it alone. -/
def attempt (schema requested : String) : Job Outcome :=
  tryCatch (do return ⟨requested, .ok (← options.generate schema requested)⟩) fun failure =>
    if failure.isEntityScoped then return ⟨requested, .error failure⟩ else throw failure

/-- Generates entities in their order. -/
def generateEach (schema : String) : List String → Job (List Outcome)
  | [] => return []
  | requested :: rest => do
    Job.tell (.started requested)
    let outcome ← options.attempt schema requested
    Job.tell (.finished outcome)
    let more ← generateEach schema rest
    return outcome :: more

/-- Generates the entities of a target. -/
def run (target : Target) : Job Summary := do
  let schema ← options.readSchema
  match target.names schema with
  | .error failure => throw failure
  | .ok names =>
    Job.note .info "processing entities" [("count", toString names.length)]
    Job.tell (.resolved names)
    return ⟨← options.generateEach schema names⟩

end Options

end EntityForge.Run

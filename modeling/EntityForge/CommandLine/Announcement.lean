import EntityForge.Run.Action

/-!
# Announcements

What is printed about a run while it goes on, and at its end.
-/

namespace EntityForge.CommandLine

open Run

/-- The lines about what became of the registry. -/
def registryLine (name : EntityName) (change : RegistryChange) : String :=
  if !change.listFound then
    "  ! imports list not found, added import line for " ++ name.module ++ " only\n"
  else if change.importAdded || change.entryAdded then "  ✓ registered " ++ name.module ++ "\n"
  else "  · " ++ name.module ++ " already registered\n"

/-- The line about a file. -/
def fileLine (path description : String) : String :=
  "  ✓ " ++ path ++ " (" ++ description ++ ")\n"

/-- The lines about an entity that was generated. -/
def reportText (report : Report) : String :=
  "\n" ++ report.name.title ++ "\n" ++
    String.join (report.files.map fun f => fileLine f.1 f.2) ++
    (match report.controller with
      | some path => fileLine path "Controller from template"
      | none => "") ++
    registryLine report.name report.registry

/-- The lines about an entity whose turn is over. -/
def outcomeText (outcome : Outcome) : String :=
  match outcome.result with
  | .ok report => reportText report
  | .error failure => "\n✗ " ++ outcome.requested ++ ": " ++ failure.message ++ "\n"

/-- The lines about an event. -/
def eventText : Event → String
  | .resolved names =>
    "\nGenerating " ++ toString names.length ++
      (if names.length = 1 then " entity...\n" else " entities...\n")
  | .started _ => ""
  | .finished outcome => outcomeText outcome

/-- The lines about a whole run. -/
def summaryText (summary : Summary) : String :=
  "\nSummary: " ++ toString summary.succeeded ++ " generated, " ++ toString summary.failed ++
    " failed\n"

/-- The lines about the models of a schema. -/
def modelsText (schema : String) (models : List EntityName) : String :=
  "\nModels in " ++ schema ++ ":\n" ++
    String.join (models.map fun m => "  " ++ m.source ++ " → " ++ m.slug ++ "/\n")

/-- What an output adds to the standard output. -/
def standardText : Output → String
  | .event event => eventText event
  | .text s => s
  | .printed s => s
  | .complaint _ => ""

/-- What an output adds to the error output. -/
def errorText : Output → String
  | .complaint s => s
  | _ => ""

end EntityForge.CommandLine

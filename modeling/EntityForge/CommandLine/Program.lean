import EntityForge.CommandLine.Announcement
import EntityForge.CommandLine.Arguments
import EntityForge.CommandLine.Complaint
import EntityForge.Config.Load
import EntityForge.Log.Filter
import EntityForge.Run.Batch
import EntityForge.Schema.Block

/-!
# The program

A command line is carried out and answered with an exit code: zero if all was done, one if something
failed, two if the command line itself is wrong.
-/

namespace EntityForge.CommandLine

open Run (Action Options Target)
open Config (Session)

/-- Prints a text. -/
def print (text : String) : Action Unit :=
  Action.request (.display (.text text))

/-- Prints a complaint and ends with an exit code. -/
def complain (complaint : Complaint) (code : Nat) : Action Nat := do
  Action.request (.display (.complaint complaint.text))
  return code

/-- The complaint about the failure of a whole run. -/
def failureComplaint (schema : String) (failure : Failure) : Complaint where
  message := "Failed to generate from " ++ schema
  causes := failure.message :: failure.cause?.toList

/-- The complaint about a run in which some entities were not generated. -/
def shortfall (summary : Run.Summary) : Complaint where
  message := toString summary.failed ++ " of " ++ toString summary.outcomes.length ++
    " entities failed"

/-- Generates the entities of a target. A registry that cannot be cut ends the process with a code
of its own. -/
def generate (options : Options) (target : Target) : Action Nat := do
  match ← (options.run target).run with
  | .error failure =>
    match failure with
    | .splitCharacter _ => complain ⟨failure.message, []⟩ 101
    | _ => complain (failureComplaint options.schema failure) 1
  | .ok summary =>
    print (summaryText summary)
    if summary.failed = 0 then return 0
    else complain (shortfall summary) 1

/-- Lists the models of a schema. -/
def listModels (schema : String) : Action Nat := do
  match ← Action.request (.readText schema) with
  | .error cause => complain ⟨"Failed to read schema: " ++ schema, [cause.message]⟩ 1
  | .ok text =>
    match Schema.names text with
    | [] => complain ⟨"Nothing found in " ++ schema, [Failure.noModels.message]⟩ 1
    | models =>
      print (modelsText schema models)
      return 0

/-- Carries out a task under a configuration. -/
def Task.carryOut (config : Config) : Task → Action Nat
  | .generate entity overrides =>
    CommandLine.generate (overrides.apply config).options (.single entity)
  | .generateAll overrides => CommandLine.generate (overrides.apply config).options .all
  | .models schema => listModels (schema.getD config.paths.schema)

/-- Loads the configuration and carries out what was asked for. -/
def Invocation.carryOut (session : Session) (invocation : Invocation) : Action Nat := do
  match ← (Config.load session invocation.config).run with
  | .error fault => complain ⟨fault.message, []⟩ 1
  | .ok config => invocation.task.carryOut config

/-- The filter for the log lines of an invocation. -/
def Invocation.filter (session : Session) (invocation : Invocation) : Log.Filter :=
  Log.Filter.ofVariable (session.environment.get? "RUST_LOG")
    (Log.defaultLevel invocation.verbose)

/-- What is printed for the version. -/
def versionText : String :=
  "nestgen 0.1.0\n"

/-- What is printed on how to use the program. -/
def usageText : String :=
  "Usage: nestgen [--config <CONFIG>] [--verbose] <COMMAND>\n\n" ++
    "Commands:\n" ++
    "  generate <ENTITY> [--schema <SCHEMA>] [--output <OUTPUT>] [--registry <REGISTRY>]\n" ++
    "  generate-all [--schema <SCHEMA>] [--output <OUTPUT>] [--registry <REGISTRY>]\n" ++
    "  models [--schema <SCHEMA>]\n"

/-- Runs the program with the words of a command line. -/
def run (session : Session) (words : List String) : Action Nat := do
  match Invocation.read words with
  | .error .version =>
    print versionText
    return 0
  | .error .help =>
    print usageText
    return 0
  | .error (.misuse misuse) =>
    Action.request (.display (.complaint ("error: " ++ misuse.message ++ "\n\n" ++ usageText)))
    return 2
  | .ok invocation =>
    (invocation.carryOut session).noting (invocation.filter session).admits

end EntityForge.CommandLine

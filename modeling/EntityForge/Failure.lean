import EntityForge.Disk.SystemError
import EntityForge.Template.Basic

/-!
# Failures

What can keep an entity from being generated. A name that the schema does not declare concerns that
entity alone; every other failure ends the run.
-/

namespace EntityForge

/-- How a program ended that did not succeed, or why it did not start. -/
inductive CommandFault where
  | notStarted (cause : SystemError)
  | exited (code : Nat)
  | killed (signal : Nat)
  deriving DecidableEq, Repr

/-- The name of a signal. -/
def signalName (signal : Nat) : String :=
  match signal with
  | 1 => "SIGHUP"
  | 2 => "SIGINT"
  | 3 => "SIGQUIT"
  | 4 => "SIGILL"
  | 5 => "SIGTRAP"
  | 6 => "SIGABRT"
  | 7 => "SIGBUS"
  | 8 => "SIGFPE"
  | 9 => "SIGKILL"
  | 10 => "SIGUSR1"
  | 11 => "SIGSEGV"
  | 12 => "SIGUSR2"
  | 13 => "SIGPIPE"
  | 14 => "SIGALRM"
  | 15 => "SIGTERM"
  | _ => ""

/-- The wording of a command's end, after the command line. -/
def CommandFault.message : CommandFault → String
  | .notStarted cause => ": " ++ cause.message
  | .exited code => " exited with exit status: " ++ toString code
  | .killed signal =>
    let name := signalName signal
    " exited with signal: " ++ toString signal ++ if name.isEmpty then "" else " (" ++ name ++ ")"

/-- Why an entity, or a whole run, was given up. -/
inductive Failure where
  /-- The schema declares no model of that name. -/
  | modelNotFound (name : String)
  /-- The schema declares no model at all. -/
  | noModels
  /-- A line of a model holds something other than fields. -/
  | malformedLine (line : String)
  /-- The registry has no imports list. -/
  | noImportsList
  /-- A file operation failed at a path. -/
  | system (path : String) (cause : SystemError)
  /-- A template could not be rendered. -/
  | template (name : String) (cause : Template.Fault)
  /-- A command of the external scaffolder failed. -/
  | command (line : String) (fault : CommandFault)
  /-- The registry would have to be cut inside a character. -/
  | splitCharacter (path : String)
  deriving DecidableEq, Repr

namespace Failure

/-- The wording of a failure. -/
def message : Failure → String
  | .modelNotFound name => "model '" ++ name ++ "' not found in schema"
  | .noModels => "no model declarations found in schema"
  | .malformedLine line => "malformed field line: '" ++ line ++ "'"
  | .noImportsList => "registry has no imports list block"
  | .system path cause => "I/O error at " ++ path ++ ": " ++ cause.message
  | .template name cause => "failed to render template '" ++ name ++ "': " ++ cause.message
  | .command line fault => "external scaffolder failed: " ++ line ++ fault.message
  | .splitCharacter path => "registry cannot be cut inside a character: " ++ path

/-- The failure behind a failure, if it has one. -/
def cause? : Failure → Option String
  | .system _ cause => some cause.message
  | .template _ cause => some cause.message
  | _ => none

/-- Whether a failure concerns one entity and lets the others go on. -/
def isEntityScoped : Failure → Bool
  | .modelNotFound _ => true
  | _ => false

end Failure

end EntityForge

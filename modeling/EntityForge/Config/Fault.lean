import EntityForge.Config.Value
import EntityForge.Disk.SystemError
import EntityForge.Text.Quoted

/-!
# Faults of a configuration

Why a configuration could not be had, and where the fault lies.
-/

namespace EntityForge.Config

/-- Where values come from. -/
inductive Source where
  /-- A file, under the path that it is shown by. -/
  | file (shown : String)
  | environment
  deriving DecidableEq, Repr

/-- What is wrong with one value: where it lies, what it is, and what was wanted. -/
structure Mismatch where
  path : List String
  found : Value
  wanted : String
  deriving Repr

/-- The mismatch of a value that lies under a key. -/
def Mismatch.under (key : String) (m : Mismatch) : Mismatch :=
  { m with path := key :: m.path }

/-- Why there is no configuration. -/
inductive Fault where
  /-- A file that was asked for is not there. -/
  | missing (path : String)
  /-- A file cannot be read. -/
  | unreadable (source : Source) (cause : SystemError)
  /-- A file holds something other than a TOML document. -/
  | malformed (source : Source)
  /-- A value is not of the kind that is wanted. -/
  | mismatch (m : Mismatch) (source : Source)
  deriving Repr

/-- What a source is called in a message. -/
def Source.description : Source → String
  | .file shown => shown ++ " TOML file"
  | .environment => "`NESTGEN_` environment variable(s)"

/-- How the place of a value is written for a source: variables have names in capitals, and files
belong to the profile that holds unless another one is chosen. -/
def Source.key (source : Source) (path : List String) : String :=
  match source with
  | .file _ => ".".intercalate ("default" :: path)
  | .environment => ".".intercalate (path.map String.toUpper)

/-- The wording of a fault. -/
def Fault.message : Fault → String
  | .missing path => "Configuration file not found: " ++ path
  | .unreadable source cause => cause.message ++ " in " ++ source.description
  | .malformed source => "TOML parse error in " ++ source.description
  | .mismatch m source =>
    "invalid type: found " ++ m.found.description ++ ", expected " ++ m.wanted ++
      (if m.path.isEmpty then "" else " for key " ++ Text.quoted (source.key m.path)) ++
      " in " ++ source.description

end EntityForge.Config

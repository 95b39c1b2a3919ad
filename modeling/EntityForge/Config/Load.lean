import EntityForge.Config.Layer
import EntityForge.Config.Toml.Document
import EntityForge.Disk.Basic
import EntityForge.Path
import EntityForge.Run.Action

/-!
# Loading a configuration

A configuration is made of the user's file, the file of the project or one that is asked for, and
the environment, each of which overrules those before it.
-/

namespace EntityForge.Config

open Run (Action)

/-- What a process finds when it begins: the variables, the working folder, and the home folder that
the account of the user has. -/
structure Session where
  environment : Environment
  folder : Location
  accountHome : Option String := none

/-- The name of the file in a project. -/
def localName : String :=
  "nestgen.toml"

namespace Session

variable (session : Session)

/-- The home folder of the user. -/
def home? : Option String :=
  match session.environment.get? "HOME" with
  | some home => if home.isEmpty then session.accountHome else some home
  | none => session.accountHome

/-- The folder that the configurations of the user are kept in. -/
def configFolder? : Option String :=
  let own := (session.home?).map (Path.join · ".config")
  match session.environment.get? "XDG_CONFIG_HOME" with
  | some folder => if Path.isAbsolute folder then some folder else own
  | none => own

/-- The path of the user's own file. -/
def userPath : String :=
  match session.configFolder? with
  | some folder => Path.join (Path.join folder "nestgen") "config.toml"
  | none => localName

/-- The paths at which a file is looked for: a relative path belongs to the working folder, or else
to one of the folders above it. -/
def candidates (path : String) : List String :=
  if Path.isAbsolute path then [path]
  else
    (List.range (session.folder.length + 1)).reverse.map fun depth =>
      Path.join (Path.ofNames (session.folder.take depth)) path

end Session

/-- The first of some paths that names a file. -/
def firstFile : List String → Action (Option String)
  | [] => return none
  | path :: rest => do
    if ← Action.request (.isFile path) then return some path
    else firstFile rest

/-- An action that can find a fault. -/
abbrev Attempt := ExceptT Fault Action

/-- Reads a file, if it is there. -/
def readFile (session : Session) (path : String) : Attempt (List Layer) := do
  match ← ExceptT.lift (firstFile (session.candidates path)) with
  | none => return []
  | some found =>
    let source := Source.file (Path.shownFrom session.folder found)
    match ← ExceptT.lift (Action.request (.readText found)) with
    | .error cause => throw (.unreadable source cause)
    | .ok text =>
      match Toml.ofText? text with
      | some entries => return [⟨source, entries⟩]
      | none => throw (.malformed source)

/-- Reads a file if something has its path. -/
def readPresent (session : Session) (path : String) : Attempt (List Layer) := do
  if ← ExceptT.lift (Action.request (.isPresent path)) then readFile session path
  else return []

/-- Reads the file that is asked for, which must be there, or else that of the project. -/
def readChosen (session : Session) (explicit : Option String) : Attempt (List Layer) := do
  match explicit with
  | none => readPresent session localName
  | some path =>
    if ← ExceptT.lift (Action.request (.isPresent path)) then readFile session path
    else throw (.missing path)

/-- Goes on with a result that is already known. -/
def Attempt.ofResult {α : Type} (result : Except Fault α) : Attempt α :=
  ExceptT.mk (pure result)

/-- Loads the configuration of a process. Of two faulty files the more important one is reported. -/
def load (session : Session) (explicit : Option String) : Attempt Config := do
  let user ← ExceptT.lift (readPresent session session.userPath).run
  let chosen ← readChosen session explicit
  let user ← Attempt.ofResult user
  Attempt.ofResult (ofLayers (user ++ chosen ++ [Layer.ofEnvironment session.environment]))

/-- Loads a configuration from a file, if it is there, and the environment. -/
def loadFrom (session : Session) (path : String) : Attempt Config := do
  let layers ← readFile session path
  Attempt.ofResult (ofLayers (layers ++ [Layer.ofEnvironment session.environment]))

end EntityForge.Config

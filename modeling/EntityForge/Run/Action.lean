import EntityForge.Disk.SystemError
import EntityForge.Log
import EntityForge.Run.Report

/-!
# Actions

An action is a computation that asks its surroundings: it is finished, or it has a request and goes
on with the reply. What the surroundings are is left to whoever performs it; a disk held in memory
will do.
-/

namespace EntityForge.Run

/-- A program to be run in a folder, with its arguments. -/
structure Command where
  folder : String
  words : List String
  deriving DecidableEq, Repr

/-- Something that a run shows. -/
inductive Output where
  | event (event : Event)
  | text (s : String)
  | complaint (s : String)
  /-- What a program that was run has printed. -/
  | printed (s : String)

/-- What an action can ask for. -/
inductive Request where
  | isPresent (path : String)
  | isFile (path : String)
  | readText (path : String)
  | writeText (path text : String)
  | removeTree (path : String)
  | makeFolders (path : String)
  | launch (command : Command)
  | note (line : Log.Line)
  | display (output : Output)

/-- What the reply to a request says. -/
abbrev Request.Reply : Request → Type
  | .isPresent _ => Bool
  | .isFile _ => Bool
  | .readText _ => Except SystemError String
  | .writeText _ _ => Except SystemError Unit
  | .removeTree _ => Except SystemError Unit
  | .makeFolders _ => Except SystemError Unit
  | .launch _ => Except CommandFault Unit
  | .note _ => Unit
  | .display _ => Unit

/-- A computation that asks its surroundings. -/
inductive Action (α : Type) where
  | done (a : α)
  | ask (request : Request) (next : request.Reply → Action α)

namespace Action

variable {α β σ : Type}

/-- Goes on with the result of an action. -/
def andThen (action : Action α) (f : α → Action β) : Action β :=
  match action with
  | .done a => f a
  | .ask request next => .ask request fun reply => (next reply).andThen f

/-- Actions go on one after the other. -/
instance : Monad Action where
  pure := .done
  bind := andThen

/-- The action of one request. -/
def request (r : Request) : Action r.Reply :=
  .ask r .done

/-- Performs an action in surroundings that have a state. -/
def perform (answer : (r : Request) → σ → r.Reply × σ) : Action α → σ → α × σ
  | .done a, s => (a, s)
  | .ask r next, s =>
    let (reply, s') := answer r s
    (next reply).perform answer s'

/-- An action that notes only the lines that pass a test. -/
def noting (keep : Log.Line → Bool) : Action α → Action α
  | .done a => .done a
  | .ask (.note line) next =>
    if keep line then .ask (.note line) fun reply => (next reply).noting keep
    else (next ()).noting keep
  | .ask request next => .ask request fun reply => (next reply).noting keep

/-- An action that goes on after another one starts in the state that this one has left. -/
theorem perform_bind (answer : (r : Request) → σ → r.Reply × σ) (action : Action α)
    (f : α → Action β) (s : σ) :
    (action >>= f).perform answer s =
      (f (action.perform answer s).1).perform answer (action.perform answer s).2 := by
  change (action.andThen f).perform answer s = _
  induction action generalizing s with
  | done a => rfl
  | ask r next ih =>
    simp only [andThen, perform]
    exact ih _ _

end Action

/-- An action that can fail. -/
abbrev Job := ExceptT Failure Action

namespace Job

/-- Asks the surroundings. -/
def ask (r : Request) : Job r.Reply :=
  ExceptT.lift (Action.request r)

/-- Reports a message about the files of a run. -/
def note (level : Log.Level) (message : String) (details : List (String × String)) : Job Unit :=
  ask (.note ⟨.files, level, message, details⟩)

/-- Shows what happens. -/
def tell (event : Event) : Job Unit :=
  ask (.display (.event event))

/-- Fails with the reason that the system gave for a path. -/
def ofReply {α : Type} (path : String) : Except SystemError α → Job α
  | .ok a => pure a
  | .error e => throw (.system path e)

/-- The text of a file. -/
def readText (path : String) : Job String := do
  ofReply path (← ask (.readText path))

/-- Writes a text to a file. -/
def writeText (path text : String) : Job Unit := do
  ofReply path (← ask (.writeText path text))

/-- Makes a folder and the folders above it. -/
def makeFolders (path : String) : Job Unit := do
  ofReply path (← ask (.makeFolders path))

/-- Removes a folder and all that lies below it. -/
def removeTree (path : String) : Job Unit := do
  ofReply path (← ask (.removeTree path))

end Job

end EntityForge.Run

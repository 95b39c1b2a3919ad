import EntityForge.CommandLine.Program

/-!
# The command

Carries the program out on the disk of the process. Nothing is decided here: each request of the
program becomes the operation of the system that it names. Programs of the user's own are not run.
-/

namespace EntityForge.Main

open Run (Action Output Request)

/-- The reason that the system gives for an error. -/
def systemError : IO.Error → SystemError
  | .noFileOrDirectory .. => .notFound
  | .alreadyExists .. => .alreadyExists
  | .permissionDenied .. => .denied
  | .inappropriateType _ code _ => if code = 21 then .isFolder else .notFolder
  | .invalidArgument .. => .nameTooLong
  | _ => .unsupported

/-- The result of an operation of the system. -/
def attempt {α : Type} (operation : IO α) : IO (Except SystemError α) := do
  try
    return .ok (← operation)
  catch e =>
    return .error (systemError e)

/-- Whether an operation of the system succeeds. -/
def succeeds {α : Type} (operation : IO α) : IO Bool := do
  try
    let _ ← operation
    return true
  catch _ =>
    return false

/-- Prints an output. -/
def printOutput (output : Output) : IO Unit := do
  (← IO.getStdout).putStr (CommandLine.standardText output)
  (← IO.getStderr).putStr (CommandLine.errorText output)

/-- Answers a request with the disk of the process. -/
def answer : (request : Request) → IO request.Reply
  | .isPresent path => succeeds (IO.FS.Handle.mk path .read)
  | .isFile path => succeeds (IO.FS.readBinFile path)
  | .readText path => do
    match ← attempt (IO.FS.readBinFile path) with
    | .error e => return .error e
    | .ok bytes =>
      match String.fromUTF8? bytes with
      | some text => return .ok text
      | none => return .error .notText
  | .writeText path text => attempt (IO.FS.writeFile path text)
  | .removeTree path => attempt (IO.FS.removeDirAll path)
  | .makeFolders path =>
    if path.isEmpty then return .ok () else attempt (IO.FS.createDirAll path)
  | .launch _ => return .error (.notStarted .unsupported)
  | .note line => do
    (← IO.getStderr).putStrLn line.text
  | .display output => printOutput output

/-- Performs an action on the disk of the process. -/
def performOnDisk {α : Type} : Action α → IO α
  | .done a => return a
  | .ask request next => do
    let reply ← answer request
    performOnDisk (next reply)

/-- A variable from its entry in the environment. -/
def entryOf? (entry : String) : Option (String × String) :=
  let cs := entry.toList
  match cs.dropWhile (· ≠ '=') with
  | _ :: value => some (String.ofList (cs.takeWhile (· ≠ '=')), String.ofList value)
  | [] => none

/-- The variables of the process. -/
def readEnvironment : IO Config.Environment := do
  match ← attempt (IO.FS.readBinFile "/proc/self/environ") with
  | .error _ => return []
  | .ok bytes =>
    let text := (String.fromUTF8? bytes).getD ""
    return (text.splitOn "\x00").filterMap entryOf?

/-- What the process finds when it begins. -/
def readSession : IO Config.Session := do
  let folder := (← IO.currentDir).toString
  return { environment := ← readEnvironment, folder := Path.names folder }

end EntityForge.Main

/-- Runs the program with the words of its command line. -/
def main (words : List String) : IO UInt32 := do
  let session ← EntityForge.Main.readSession
  let code ← EntityForge.Main.performOnDisk (EntityForge.CommandLine.run session words)
  return UInt32.ofNat code

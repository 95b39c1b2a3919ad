import EntityForge.Disk.Operation
import EntityForge.Run.Action

/-!
# Surroundings in memory

A machine has a disk and a working folder, and keeps what it was told to show and to note. Two
things about it are free: what the programs that it runs do to the disk, and which of its file
operations fail although nothing on the disk speaks against them. Files are read and written as a
whole or not at all; folders may be removed or made in part.
-/

namespace EntityForge.Run

/-- How a program ended, what it printed on the standard output and on the error output, and how it
left the disk. -/
structure Launch where
  result : Except CommandFault Unit
  printed : String := ""
  complained : String := ""
  disk : Disk

/-- What is free about a machine. -/
structure Surroundings where
  /-- What a program does in a folder. -/
  launch : List String → Location → Disk → Launch
  /-- Whether the file operation with a number fails, and why. -/
  fault : Nat → Option SystemError
  /-- Which places are gone when the file operation with a number has failed to remove a folder. -/
  removed : Nat → Location → Bool := fun _ _ => false
  /-- How far the file operation with a number has come when it has failed to make folders. -/
  reached : Nat → Nat := fun _ => 0

/-- A machine in the course of an action. -/
structure Machine where
  disk : Disk
  here : Location
  operations : Nat := 0
  shown : List Output := []
  noted : List Log.Line := []

namespace Machine

/-- One more file operation. -/
def count (m : Machine) : Machine :=
  { m with operations := m.operations + 1 }

/-- A file operation that looks whether something is there. If it fails, nothing is found. -/
def looking (s : Surroundings) (m : Machine) (found : Bool) : Bool × Machine :=
  match s.fault m.operations with
  | some _ => (false, m.count)
  | none => (found, m.count)

/-- A file operation that reads. -/
def reading {α : Type} (s : Surroundings) (m : Machine) (read : Except SystemError α) :
    Except SystemError α × Machine :=
  match s.fault m.operations with
  | some e => (.error e, m.count)
  | none => (read, m.count)

/-- A file operation that changes the disk. A fault leaves the disk as it says. -/
def changing (s : Surroundings) (m : Machine) (left : Disk) (change : Except SystemError Disk) :
    Except SystemError Unit × Machine :=
  match s.fault m.operations, change with
  | some e, _ => (.error e, { m.count with disk := left })
  | none, .error e => (.error e, m.count)
  | none, .ok disk => (.ok (), { m.count with disk := disk })

/-- Makes folders. Those made before an error stay, and a fault leaves the disk as it says. -/
def making (s : Surroundings) (m : Machine) (left : Disk) (made : Except SystemError Unit × Disk) :
    Except SystemError Unit × Machine :=
  match s.fault m.operations with
  | some e => (.error e, { m.count with disk := left })
  | none => (made.1, { m.count with disk := made.2 })

/-- Runs a program in a folder, if that is one. -/
def launching (s : Surroundings) (m : Machine) (command : Command) :
    Except CommandFault Unit × Machine :=
  match m.disk.locate m.here command.folder with
  | .error e => (.error (.notStarted e), m)
  | .ok place =>
    match m.disk.get? place with
    | some .folder =>
      let launch := s.launch command.words place m.disk
      let shown := m.shown ++ [.printed launch.printed, .complaint launch.complained]
      (launch.result, { m with disk := launch.disk, shown := shown })
    | some (.file _) => (.error (.notStarted .notFolder), m)
    | none => (.error (.notStarted .notFound), m)

/-- Answers a request. -/
def answer (s : Surroundings) : (r : Request) → Machine → r.Reply × Machine
  | .isPresent path, m => m.looking s (m.disk.find? m.here path).isSome
  | .isFile path, m => m.looking s (m.disk.isFile m.here path)
  | .readText path, m => m.reading s (m.disk.readText m.here path)
  | .writeText path text, m => m.changing s m.disk (m.disk.writeText m.here path text)
  | .removeTree path, m =>
    m.changing s (m.disk.removeSome m.here path (s.removed m.operations))
      (m.disk.removeTree m.here path)
  | .makeFolders path, m =>
    m.making s (m.disk.makeSome m.here path (s.reached m.operations))
      (m.disk.makeFolders m.here path)
  | .launch command, m => m.launching s command
  | .note line, m => ((), { m with noted := m.noted ++ [line] })
  | .display output, m => ((), { m with shown := m.shown ++ [output] })

/-- Performs an action. -/
def perform {α : Type} (s : Surroundings) (action : Action α) (m : Machine) : α × Machine :=
  action.perform (answer s) m

end Machine

end EntityForge.Run

import EntityForge.Disk.Basic
import EntityForge.Path

/-!
# File operations

What programs do with paths: look, read, write, remove and make. A path is followed part by part;
each part but the last has to name a folder.
-/

namespace EntityForge.Disk

/-- The number of bytes that the name of a file may have. -/
def longestName : Nat :=
  255

/-- The number of bytes that a path may have. -/
def longestPath : Nat :=
  4095

/-- Goes one part further from a folder. -/
def step (disk : Disk) (place : Location) (part : List Char) : Except SystemError Location :=
  match disk.get? place with
  | none => .error .notFound
  | some (.file _) => .error .notFolder
  | some .folder =>
    if Path.isIdle part then .ok place
    else if part = ['.', '.'] then .ok place.dropLast
    else if longestName < (String.ofList part).utf8ByteSize then .error .nameTooLong
    else .ok (place ++ [String.ofList part])

/-- Follows parts from a place. Something need not stand at the end. -/
def walk (disk : Disk) (place : Location) : List (List Char) → Except SystemError Location
  | [] => .ok place
  | part :: rest => do
    let next ← disk.step place part
    disk.walk next rest

/-- What is wrong with a path as such. -/
def pathError? (path : String) : Option SystemError :=
  if path.toList.contains '\x00' then some .nulInPath
  else if path.isEmpty then some .notFound
  else if longestPath < path.utf8ByteSize then some .nameTooLong
  else none

/-- The place that paths are followed from. -/
def startOf (here : Location) (path : String) : Location :=
  if Path.isAbsolute path then [] else here

/-- The place that a path names; `here` is the working folder. -/
def locate (disk : Disk) (here : Location) (path : String) : Except SystemError Location :=
  match pathError? path with
  | some e => .error e
  | none => disk.walk (startOf here path) (Path.parts path.toList)

/-- What a path names, if it names something. -/
def find? (disk : Disk) (here : Location) (path : String) : Option Entry :=
  match disk.locate here path with
  | .ok place => disk.get? place
  | .error _ => none

/-- Whether a path names a file. -/
def isFile (disk : Disk) (here : Location) (path : String) : Bool :=
  match disk.find? here path with
  | some (.file _) => true
  | _ => false

/-- The text of a file. -/
def readText (disk : Disk) (here : Location) (path : String) : Except SystemError String := do
  let place ← disk.locate here path
  match disk.get? place with
  | none => .error .notFound
  | some .folder => .error .isFolder
  | some (.file (.binary _)) => .error .notText
  | some (.file (.text s)) => .ok s

/-- A path without the slashes at its end. -/
def withoutSlashes (path : String) : String :=
  String.ofList (path.toList.reverse.dropWhile (· == '/')).reverse

/-- The disk after a text was written to a file, which is made if it is missing. -/
def writeText (disk : Disk) (here : Location) (path text : String) : Except SystemError Disk := do
  if path.toList.getLast? = some '/' then
    let _ ← disk.locate here (withoutSlashes path)
    .error .isFolder
  else
    let place ← disk.locate here path
    match disk.get? place with
    | some .folder => .error .isFolder
    | _ => .ok (disk.put place (.file (.text text)))

/-- The disk after a folder was removed with all that lies below it. -/
def removeTree (disk : Disk) (here : Location) (path : String) : Except SystemError Disk := do
  let place ← disk.locate here path
  match disk.get? place with
  | none => .error .notFound
  | some (.file _) => .error .notFolder
  | some .folder => .ok (disk.prune place)

/-- The disk after somebody set out to remove a folder and did not come to the end: of what lies
there, only some places are gone. -/
def removeSome (disk : Disk) (here : Location) (path : String) (gone : Location → Bool) : Disk :=
  match disk.locate here path with
  | .ok place =>
    match disk.get? place with
    | some .folder => disk.clear place gone
    | _ => disk
  | .error _ => disk

/-- Makes the missing folders along parts, and says what went wrong at the first part that cannot
be one. The folders made before that stay. -/
def makeAlong (disk : Disk) (place : Location) : List (List Char) → Except SystemError Unit × Disk
  | [] => (.ok (), disk)
  | part :: rest =>
    match disk.step place part with
    | .error e => (.error e, disk)
    | .ok next =>
      match disk.get? next with
      | some .folder => disk.makeAlong next rest
      | none => (disk.put next .folder).makeAlong next rest
      | some (.file _) =>
        (.error (if rest.all Path.isIdle then .alreadyExists else .notFolder), disk)

/-- Makes a folder and the missing folders above it. No path is asked to be made by the empty
path. -/
def makeFolders (disk : Disk) (here : Location) (path : String) : Except SystemError Unit × Disk :=
  if path.isEmpty then (.ok (), disk)
  else
    match pathError? path with
    | some e => (.error e, disk)
    | none => disk.makeAlong (startOf here path) (Path.parts path.toList)

/-- The disk after somebody set out to make a folder and did not come further than some parts. -/
def makeSome (disk : Disk) (here : Location) (path : String) (reached : Nat) : Disk :=
  if path.isEmpty ∨ (pathError? path).isSome then disk
  else (disk.makeAlong (startOf here path) ((Path.parts path.toList).take reached)).2

end EntityForge.Disk

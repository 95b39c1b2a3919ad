/-!
# Paths

A path is text with slashes between its parts. Nothing in it is resolved or tidied when paths are
put together, so that messages show what the caller wrote.
-/

namespace EntityForge.Path

/-- Whether a path starts at the root. -/
def isAbsolute (path : String) : Bool :=
  path.toList.head? == some '/'

/-- Puts a path below another one. An absolute path stands for itself, and nothing stands below
nothing. -/
def join (base path : String) : String :=
  if isAbsolute path then path
  else if base.toList.isEmpty then path
  else if base.toList.getLast? = some '/' then base ++ path
  else base ++ "/" ++ path

/-- The parts of a path between its slashes. -/
def parts : List Char → List (List Char)
  | [] => [[]]
  | '/' :: rest => [] :: parts rest
  | c :: rest =>
    match parts rest with
    | [] => [[c]]
    | part :: more => (c :: part) :: more

/-- Whether a part names nothing: it is empty or a single dot. -/
def isIdle (part : List Char) : Bool :=
  part.isEmpty || part == ['.']

/-- The names in a path. -/
def names (path : String) : List String :=
  ((parts path.toList).filter fun part => !isIdle part).map String.ofList

/-- The path from the root to a place, by the names on the way. -/
def ofNames (names : List String) : String :=
  "/" ++ "/".intercalate names

/-- How a path from the root is shown to someone in a folder: from there on, unless that takes more
parts. -/
def shownFrom (folder : List String) (path : String) : String :=
  let all := names path
  let common := ((folder.zip all).takeWhile fun p => p.1 = p.2).length
  let steps := List.replicate (folder.length - common) ".." ++ all.drop common
  if steps.length ≤ all.length then "/".intercalate steps else path

/-- Leaves out the idle parts at the end, counting from the last, but not the very first part. -/
def dropIdle : List (List Char) → List (List Char)
  | [] => []
  | [first] => [first]
  | part :: more => if isIdle part then dropIdle more else part :: more

/-- The path of the folder that holds what a path names, if it has a last part to take away. -/
def parent? (path : String) : Option String :=
  match dropIdle (parts path.toList).reverse with
  | [] => none
  | [first] => if first.isEmpty then none else some ""
  | _ :: more =>
    match (dropIdle more).reverse with
    | [[]] => some "/"
    | kept => some (String.ofList (['/'].intercalate kept))

end EntityForge.Path

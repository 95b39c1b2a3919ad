import EntityForge.Config.Value

/-!
# The tables of a TOML document

A document names its tables in headers and in dotted keys. How a table came to be decides what may
still be said about it: no header and no key is given twice, and dotted keys do not reach into a
table that has a header of its own.
-/

namespace EntityForge.Config.Toml

/-- How a table came to be. -/
inductive Origin where
  /-- It has a header, or is the document itself. -/
  | header
  /-- It lies on the way to a table that has a header. -/
  | implied
  /-- It lies on the way of a dotted key. -/
  | dotted
  deriving DecidableEq, Repr

/-- What stands under a key while a document is read. -/
inductive Node where
  | value (v : Value)
  | table (origin : Origin) (entries : List (String × Node))
  /-- The tables of a list, of which only the last one is still open. -/
  | tables (last : List (String × Node)) (earlier : List (List (String × Node)))

/-- The entries of a table while a document is read. -/
abbrev Branch := List (String × Node)

namespace Branch

/-- Changes the table at the end of a path. Missing tables on the way are made: they are dotted if
the path is a dotted key, and implied if it is a header. -/
def reach? (dotted : Bool) (change : Origin → Branch → Option Branch) (origin : Origin)
    (branch : Branch) : List String → Option Branch
  | [] => change origin branch
  | key :: path =>
    match branch.lookup key with
    | none => do
      let made := if dotted then Origin.dotted else .implied
      let inner ← reach? dotted change made [] path
      return put key (.table made inner) branch
    | some (.table inside inner) =>
      if dotted && inside = .header then none
      else do
        let inner ← reach? dotted change inside inner path
        return put key (.table inside inner) branch
    | some (.tables last earlier) => do
      let last ← reach? dotted change .header last path
      return put key (.tables last earlier) branch
    | some (.value _) => none

/-- Gives a value to a key that has none. -/
def add? (key : String) (v : Value) (branch : Branch) : Option Branch :=
  match branch.lookup key with
  | none => some (put key (.value v) branch)
  | some _ => none

/-- Gives a value to the last of dotted keys. A table on their way must be theirs alone. -/
def assign? (path : List String) (key : String) (v : Value) (branch : Branch) : Option Branch :=
  branch.reach? true (fun origin inner =>
    if origin = .dotted ∨ path = [] then inner.add? key v else none) .header path

/-- Opens the table of a header. It may lie on the way to others, but is nothing else yet. -/
def open? (key : String) (branch : Branch) : Option Branch :=
  match branch.lookup key with
  | none => some (put key (.table .header []) branch)
  | some (.table .implied inner) => some (put key (.table .header inner) branch)
  | some _ => none

/-- Opens one more table of a list. -/
def append? (key : String) (branch : Branch) : Option Branch :=
  match branch.lookup key with
  | none => some (put key (.tables [] []) branch)
  | some (.tables last earlier) => some (put key (.tables [] (last :: earlier)) branch)
  | some _ => none

end Branch

mutual

/-- What stands under a key at the end of a document. -/
def Node.result : Node → Value
  | .value v => v
  | .table _ entries => .table (Branch.result entries)
  | .tables last earlier => .list (Branch.results earlier ++ [.table (Branch.result last)])

/-- The entries of a table at the end of a document. -/
def Branch.result : List (String × Node) → Table
  | [] => []
  | (key, node) :: rest => (key, node.result) :: Branch.result rest

/-- The tables of a list, of which the last one comes first. -/
def Branch.results : List (List (String × Node)) → List Value
  | [] => []
  | branch :: rest => Branch.results rest ++ [.table (Branch.result branch)]

end

/-- What one or several lines of a document say. -/
inductive Statement where
  | nothing
  /-- The entries that follow belong to this table. -/
  | header (path : List String)
  /-- The entries that follow belong to one more table of this list. -/
  | item (path : List String)
  | entry (path : List String) (v : Value)

/-- A document in the course of being read, and the table that entries belong to. -/
structure Draft where
  root : Branch
  here : List String

namespace Draft

/-- A document that says nothing. -/
def empty : Draft :=
  ⟨[], []⟩

/-- Splits a path into its last key and what leads there. -/
def last? (path : List String) : Option (List String × String) :=
  path.getLast?.map fun key => (path.dropLast, key)

/-- Takes up a statement, unless it contradicts an earlier one. -/
def take? (draft : Draft) : Statement → Option Draft
  | .nothing => some draft
  | .header path => do
    let (way, key) ← last? path
    let root ← draft.root.reach? false (fun _ b => b.open? key) .header way
    return ⟨root, path⟩
  | .item path => do
    let (way, key) ← last? path
    let root ← draft.root.reach? false (fun _ b => b.append? key) .header way
    return ⟨root, path⟩
  | .entry path v => do
    let (way, key) ← last? path
    let root ← draft.root.reach? false (fun _ b => b.assign? way key v) .header draft.here
    return { draft with root := root }

/-- The document that statements make. -/
def table? (statements : List Statement) : Option Table :=
  (statements.foldlM take? empty).map fun draft => Branch.result draft.root

end Draft

end EntityForge.Config.Toml

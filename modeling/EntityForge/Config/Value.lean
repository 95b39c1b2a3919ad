import EntityForge.Text.Quoted

/-!
# Values of a configuration

What a configuration source says before anything is known about what it should say. Sources are laid
over each other: tables are merged key by key, and any other value replaces what lies below it.
-/

namespace EntityForge.Config

/-- A value of a configuration source. -/
inductive Value where
  | text (s : String)
  | character (c : Char)
  | truth (b : Bool)
  | natural (n : Nat)
  | integer (i : Int)
  /-- A number that may have a fraction, in plain decimal digits. -/
  | decimal (digits : String)
  | list (items : List Value)
  | table (entries : List (String × Value))
  deriving Inhabited, Repr

/-- A number of 64 bits with a sign is below this one, and is not below its negative. -/
def signedLimit : Nat :=
  0x8000000000000000

/-- A number of 64 bits without a sign is below this one. -/
def unsignedLimit : Nat :=
  0x10000000000000000

/-- The entries of a table, each key once. -/
abbrev Table := List (String × Value)

/-- Entries with a value under a key, in the place of the one it had there. -/
def put {α : Type} (key : String) (value : α) : List (String × α) → List (String × α)
  | [] => [(key, value)]
  | (k, v) :: rest => if k = key then (k, value) :: rest else (k, v) :: put key value rest

mutual

/-- Lays a value over another one. -/
def Value.over (lower : Value) : Value → Value
  | .table upper =>
    match lower with
    | .table entries => .table (Table.over entries upper)
    | _ => .table upper
  | upper => upper

/-- Lays a table over another one. -/
def Table.over (lower : Table) : Table → Table
  | [] => lower
  | (key, value) :: rest =>
    let merged :=
      match lower.lookup key with
      | some old => old.over value
      | none => value
    Table.over (put key merged lower) rest

end

namespace Value

/-- The value under a key, or at a position given in decimal digits. -/
def part? (key : String) : Value → Option Value
  | .table entries => entries.lookup key
  | .list items => key.toNat?.bind fun n => items[n]?
  | _ => none

/-- The value at the end of a path. -/
def atPath? : List String → Value → Option Value
  | [], v => some v
  | key :: rest, v => (v.part? key).bind (atPath? rest)

/-- What a value is called in a message. -/
def description : Value → String
  | .text s => "string " ++ Text.quoted s
  | .character c => "char " ++ String.ofList (['\''] ++ Text.escaped c ++ ['\''])
  | .truth b => "bool " ++ toString b
  | .natural n => "unsigned int `" ++ toString n ++ "`"
  | .integer i => "signed int `" ++ toString i ++ "`"
  | .decimal digits => "float `" ++ digits ++ "`"
  | .list _ => "sequence"
  | .table _ => "map"

end Value

end EntityForge.Config

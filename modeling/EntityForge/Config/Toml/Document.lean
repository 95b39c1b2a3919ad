import EntityForge.Config.Toml.Number
import EntityForge.Config.Toml.Text
import EntityForge.Config.Toml.Tree

/-!
# TOML documents

A document is read statement by statement: headers, entries and empty lines. It is refused as a
whole if one of them is ill-formed or contradicts an earlier one.
-/

namespace EntityForge.Config.Toml

/-- Reads one or more with a mark between them. Behind a mark that no further one follows nothing is
taken, nor the mark. -/
def divided? {α : Type} (mark : Char) (read : List Char → Option (α × List Char))
    (s : List Char) : Option (List α × List Char) :=
  match read s with
  | none => none
  | some (a, rest) =>
    match rest with
    | [] => some ([a], [])
    | c :: more =>
      if _h : c = mark ∧ more.length < s.length then
        match divided? mark read more with
        | some (as, after) => some (a :: as, after)
        | none => some ([a], rest)
      else some ([a], rest)
termination_by s.length
decreasing_by exact _h.2

/-- Reads again and again up to the end of a text. Reading that takes nothing fails. -/
def all? {α : Type} (read : List Char → Option (α × List Char)) (s : List Char) :
    Option (List α) :=
  if s.isEmpty then some []
  else
    match read s with
    | none => none
    | some (a, rest) =>
      if _h : rest.length < s.length then (all? read rest).map (a :: ·) else none
termination_by s.length
decreasing_by exact _h

/-- Whether a character can stand in a key without quotes. -/
def isKeyCharacter (c : Char) : Bool :=
  c.isAlphanum || c = '_' || c = '-'

/-- Reads a key with the white space around it. -/
def key? (s : List Char) : Option (String × List Char) :=
  let s := skipBlanks s
  match line? s with
  | some (key, rest) => some (String.ofList key, skipBlanks rest)
  | none =>
    match s.takeWhile isKeyCharacter with
    | [] => none
    | key => some (String.ofList key, skipBlanks (s.dropWhile isKeyCharacter))

/-- Values lie at most so deep in values, and a path has at most so many keys. -/
def deepest : Nat :=
  79

/-- Reads keys with dots between them. -/
def path? (s : List Char) : Option (List String × List Char) := do
  let (path, rest) ← divided? '.' key? s
  guard (path.length ≤ deepest)
  return (path, rest)

/-- Reads keys and the value that they get. -/
def assignment? (value? : List Char → Option (Value × List Char)) (s : List Char) :
    Option ((List String × Value) × List Char) := do
  let (path, rest) ← path? s
  let (v, rest) ← value? (skipBlanks (← mark? '=' rest))
  return ((path, v), skipBlanks rest)

/-- Reads a list after its opening bracket. -/
def list? (value? : List Char → Option (Value × List Char)) (s : List Char) :
    Option (Value × List Char) :=
  let item? (s : List Char) := (value? (skipLines true s)).map fun p => (p.1, skipLines true p.2)
  match skipLines true s with
  | ']' :: rest => some (.list [], rest)
  | _ =>
    match divided? ',' item? s with
    | some (items, ']' :: rest) => some (.list items, rest)
    | some (items, ',' :: more) =>
      match skipLines true more with
      | ']' :: rest => some (.list items, rest)
      | _ => none
    | _ => none

/-- Reads a table after its opening brace. -/
def braces? (value? : List Char → Option (Value × List Char)) (s : List Char) :
    Option (Value × List Char) := do
  match skipBlanks s with
  | '\x7d' :: rest => return (.table [], rest)
  | _ =>
    let (entries, rest) ← divided? ',' (assignment? value?) s
    let rest ← mark? '\x7d' rest
    let entries ← Draft.table? (entries.map fun e => .entry e.1 e.2)
    return (.table entries, rest)

/-- Reads a value without values in it. -/
def scalar? (s : List Char) : Option (Value × List Char) :=
  match s with
  | 't' :: 'r' :: 'u' :: 'e' :: rest => some (.truth true, rest)
  | 'f' :: 'a' :: 'l' :: 's' :: 'e' :: rest => some (.truth false, rest)
  | _ =>
    match text? s with
    | some (t, rest) => some (.text (String.ofList t), rest)
    | none => numeral? s

/-- Reads a value with values in it up to a depth. -/
def value? : Nat → List Char → Option (Value × List Char)
  | 0, s => scalar? s
  | depth + 1, s =>
    match s with
    | '[' :: rest => list? (value? depth) rest
    | '\x7b' :: rest => braces? (value? depth) rest
    | _ => scalar? s

/-- Reads a header after its opening brackets. -/
def header? (closing : List Char) (s : List Char) : Option (List String × List Char) := do
  let (path, rest) ← path? s
  guard (closing.isPrefixOf rest)
  return (path, rest.drop closing.length)

/-- Reads a statement with the end of its last line. -/
def statement? (s : List Char) : Option (Statement × List Char) := do
  match skipBlanks s with
  | '[' :: '[' :: rest =>
    let (path, rest) ← header? [']', ']'] rest
    return (.item path, ← statementEnd? rest)
  | '[' :: rest =>
    let (path, rest) ← header? [']'] rest
    return (.header path, ← statementEnd? rest)
  | inner =>
    match statementEnd? inner with
    | some rest => return (.nothing, rest)
    | none =>
      let ((path, v), rest) ← assignment? (value? deepest) inner
      return (.entry path v, ← statementEnd? rest)

/-- A text without a byte order mark at its beginning. -/
def skipOrderMark : List Char → List Char
  | '\uFEFF' :: rest => rest
  | s => s

/-- The table that a document describes, if it is well-formed. -/
def ofText? (text : String) : Option Table := do
  Draft.table? (← all? statement? (skipOrderMark text.toList))

end EntityForge.Config.Toml

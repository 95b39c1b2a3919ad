import EntityForge.Config.Escape
import EntityForge.Config.Value
import EntityForge.Decimal.Literal
import EntityForge.Decimal.Shortest
import EntityForge.Path
import EntityForge.Text.Blank
import EntityForge.Text.Line

/-!
# Environment variables

A variable whose name begins with `NESTGEN_` sets one value. Two underscores in the rest of its
name lead from a table into a table in it. The text of the variable is read as a value where it
looks like one, and else stands for itself.
-/

namespace EntityForge.Config

open Text

/-- The variables of a process with their values. -/
abbrev Environment := List (String × String)

namespace Variable

/-- The beginning of the names that count. Case does not matter in it. -/
def marker : List Char :=
  "nestgen_".toList

/-- The keys that lead to what a variable sets, if its name counts. -/
def keys? (name : String) : Option (List String) :=
  let whole := (trim name.toList).map Char.toLower
  if marker.isPrefixOf whole then
    let dotted := trim (Text.replace ['_', '_'] ['.'] (whole.drop marker.length))
    let slashed := Path.parts (dotted.map fun c => if c = '.' then '/' else c)
    if slashed.any List.isEmpty then none else some (slashed.map String.ofList)
  else none

/-- ASCII white space. -/
def isSpace (c : Char) : Bool :=
  c = ' ' || c = '\t' || c = '\n' || c = '\x0c' || c = '\r'

/-- Whether a character can stand in an unquoted value. -/
def isFree (c : Char) : Bool :=
  !(c = ',' || c = '\x7b' || c = '\x7d' || c = '[' || c = ']')

/-- Whether a character can stand in an unquoted key. -/
def isKeyCharacter (c : Char) : Bool :=
  c.isAlphanum || c = '_' || c = '-'

/-- A text without leading white space. -/
def skip (s : List Char) : List Char :=
  s.dropWhile isSpace

/-- The value that an unquoted text stands for: a number if it is one, which without a point has to
have 64 bits. -/
def bare (s : List Char) : Value :=
  let content := trim s
  let text := Value.text (String.ofList content)
  if content.contains '.' then
    match Decimal.Scientific.ofLiteral? content with
    | some (negative, n) => .decimal (Decimal.text negative n)
    | none => text
  else
    let (negative, unsigned) := Decimal.signed content
    match number? 10 unsigned with
    | none => text
    | some n =>
      if negative then if n ≤ signedLimit then .integer (-n) else text
      else if n < unsignedLimit then .natural n else text

/-- Reads a key with the white space around it. -/
def key? (s : List Char) : Option (String × List Char) := do
  let s := skip s
  match s with
  | '"' :: rest =>
    let (key, after) ← Escape.string? rest
    return (String.ofList key, skip after)
  | _ =>
    let key := s.takeWhile isKeyCharacter
    guard (!key.isEmpty)
    return (String.ofList key, skip (s.dropWhile isKeyCharacter))

mutual

/-- Reads a value with the white space around it; the first argument bounds how deep values can lie
in values. -/
def value? : Nat → List Char → Option (Value × List Char)
  | 0, _ => none
  | fuel + 1, s => do
    let (v, rest) ← match skip s with
      | 't' :: 'r' :: 'u' :: 'e' :: rest => some (.truth true, rest)
      | 'f' :: 'a' :: 'l' :: 's' :: 'e' :: rest => some (.truth false, rest)
      | '\x7b' :: rest => (entries? fuel [] rest).map fun p => (.table p.1, p.2)
      | '[' :: rest => (items? fuel rest).map fun p => (.list p.1, p.2)
      | '"' :: rest => (Escape.string? rest).map fun p => (.text (String.ofList p.1), p.2)
      | '\'' :: c :: '\'' :: rest => some (.character c, rest)
      | '\'' :: _ => none
      | free => some (bare (free.takeWhile isFree), free.dropWhile isFree)
    return (v, skip rest)

/-- Reads the values of a list up to its closing bracket. -/
def items? : Nat → List Char → Option (List Value × List Char)
  | 0, _ => none
  | _ + 1, ']' :: rest => some ([], rest)
  | fuel + 1, s => do
    let (v, rest) ← value? fuel s
    match rest with
    | ',' :: more =>
      let (vs, after) ← items? fuel more
      return (v :: vs, after)
    | ']' :: after => return ([v], after)
    | _ => none

/-- Reads the entries of a table up to its closing brace, after those that are known. -/
def entries? : Nat → Table → List Char → Option (Table × List Char)
  | 0, _, _ => none
  | _ + 1, known, '\x7d' :: rest => some (known, rest)
  | fuel + 1, known, s => do
    let (key, rest) ← key? s
    match rest with
    | '=' :: rest =>
      let (v, rest) ← value? fuel rest
      let known := put key v known
      match rest with
      | ',' :: more => entries? fuel known more
      | '\x7d' :: after => return (known, after)
      | _ => none
    | _ => none

end

/-- The value of a variable with a text. -/
def read (text : String) : Value :=
  match value? (2 * text.length + 2) text.toList with
  | some (v, []) => v
  | _ => .text text

/-- The table that holds a value at the end of a path of keys. Without a key there is no place for
it. -/
def nest (value : Value) : List String → Table
  | [] => []
  | [key] => [(key, value)]
  | key :: more => [(key, .table (nest value more))]

end Variable

/-- What the variables of an environment set; a later one wins. -/
def Environment.table (environment : Environment) : Table :=
  environment.foldl (fun below (name, text) =>
    match Variable.keys? name with
    | some keys => Table.over below (Variable.nest (Variable.read text) keys)
    | none => below) []

/-- The text of a variable. -/
def Environment.get? (environment : Environment) (name : String) : Option String :=
  environment.lookup name

end EntityForge.Config

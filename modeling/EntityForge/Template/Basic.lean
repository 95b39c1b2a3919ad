import EntityForge.Text.Quoted

/-!
# Templates

A template is a list of lines, some of them under a condition or repeated for every item of a list.
A line mixes text with values that are looked up by name. Every name has to be known: the first one
that is not stops the rendering and is reported with its line.
-/

namespace EntityForge.Template

/-- What a name can stand for. -/
inductive Value where
  | none
  | truth (b : Bool)
  | integer (i : Int)
  | text (s : String)
  | list (items : List Value)
  | table (entries : List (String × Value))
  deriving Inhabited, Repr

namespace Value

mutual

/-- A value as an item of a list. -/
def inner : Value → String
  | .none => "None"
  | .truth b => if b then "True" else "False"
  | .integer i => toString i
  | .text s => Text.quoted s
  | .list items => "[" ++ ", ".intercalate (innerAll items) ++ "]"
  | .table entries => "\x7b" ++ ", ".intercalate (innerEntries entries) ++ "\x7d"

/-- The items of a list. -/
def innerAll : List Value → List String
  | [] => []
  | v :: rest => inner v :: innerAll rest

/-- The entries of a table. -/
def innerEntries : List (String × Value) → List String
  | [] => []
  | (key, v) :: rest => (Text.quoted key ++ ": " ++ inner v) :: innerEntries rest

end

/-- A value in the output: a text as it is. -/
def shown : Value → String
  | .text s => s
  | v => v.inner

/-- Whether a condition on the value holds: it is neither nothing nor empty nor zero. -/
def holds : Value → Bool
  | .none => false
  | .truth b => b
  | .integer i => i != 0
  | .text s => s != ""
  | .list items => !items.isEmpty
  | .table entries => !entries.isEmpty

/-- What a repetition runs over: the items of a list, the characters of a text, the keys of a
table. -/
def items? : Value → Option (List Value)
  | .list items => some items
  | .text s => some (s.toList.map fun c => .text (String.singleton c))
  | .table entries => some (entries.map fun e => .text e.1)
  | .none => some []
  | .truth _ | .integer _ => Option.none

/-- The word for a kind of value that cannot be repeated over. -/
def kind : Value → String
  | .none => "none"
  | .truth _ => "bool"
  | .integer _ => "number"
  | .text _ => "string"
  | .list _ => "sequence"
  | .table _ => "map"

end Value

/-- What the names of a template stand for. -/
abbrev Context := List (String × Value)

/-- Why a template could not be rendered. -/
inductive Fault where
  /-- The template has a name on that line which stands for nothing. -/
  | undefined (template : String) (line : Nat)
  /-- On that line it repeats over something that has no items. -/
  | noItems (template : String) (line : Nat) (kind : String)
  /-- There is no such template. -/
  | unknown (template : String)
  deriving DecidableEq, Repr

/-- The template that a fault is about. -/
def Fault.template : Fault → String
  | .undefined template _ | .noItems template _ _ | .unknown template => template

/-- The wording of a fault. -/
def Fault.message : Fault → String
  | .undefined template line => s!"undefined value (in {template}:{line})"
  | .noItems template line kind =>
    s!"invalid operation: {kind} is not iterable (in {template}:{line})"
  | .unknown template => s!"template not found: template \"{template}\" does not exist"

/-- A part of a line. -/
inductive Segment where
  | text (s : String)
  | value (name : String)
  deriving DecidableEq, Repr

/-- A line of a template. -/
abbrev Line := List Segment

/-- A line, or lines that are repeated with `item` standing for each item of `list` in turn. The
two lines that begin and end a repetition are not part of the output. -/
inductive Part where
  | line (line : Line)
  | repeated (item list : String) (body : List Line)
  deriving DecidableEq, Repr

/-- A part, or the choice between two lists of parts by a condition. The three lines that begin,
divide and end a choice are not part of the output. -/
inductive Block where
  | part (part : Part)
  | choice (condition : String) (yes no : List Part)
  deriving DecidableEq, Repr

/-- The number of source lines of a part. -/
def Part.height : Part → Nat
  | .line _ => 1
  | .repeated _ _ body => body.length + 2

/-- The number of source lines of parts. -/
def heightOf (parts : List Part) : Nat :=
  parts.foldr (fun p n => p.height + n) 0

/-- The number of source lines of a block. -/
def Block.height : Block → Nat
  | .part p => p.height
  | .choice _ yes no => heightOf yes + heightOf no + 3

/-- What a name stands for on a line of a template. -/
def valueOf (template : String) (context : Context) (line : Nat) (name : String) :
    Except Fault Value :=
  match context.lookup name with
  | some v => .ok v
  | none => .error (.undefined template line)

/-- Writes one line, which stands at a number in its template. -/
def Line.render (template : String) (context : Context) (number : Nat) :
    Line → Except Fault String
  | [] => .ok ""
  | .text s :: rest => do
    let after ← Line.render template context number rest
    return s ++ after
  | .value name :: rest => do
    let v ← valueOf template context number name
    let after ← Line.render template context number rest
    return v.shown ++ after

/-- Writes lines that follow each other, the first of them at a number in their template. -/
def renderLines (template : String) (context : Context) (number : Nat) :
    List Line → Except Fault (List String)
  | [] => .ok []
  | line :: rest => do
    let first ← line.render template context number
    let more ← renderLines template context (number + 1) rest
    return first :: more

/-- Writes lines once for each item. -/
def renderItems (template : String) (context : Context) (number : Nat) (item : String)
    (body : List Line) : List Value → Except Fault (List String)
  | [] => .ok []
  | v :: rest => do
    let once ← renderLines template ((item, v) :: context) number body
    let more ← renderItems template context number item body rest
    return once ++ more

/-- Writes a part, whose first source line has a number. -/
def Part.render (template : String) (context : Context) (number : Nat) :
    Part → Except Fault (List String)
  | .line segments => do
    let text ← Line.render template context number segments
    return [text]
  | .repeated item list body => do
    let v ← valueOf template context number list
    match v.items? with
    | some items => renderItems template context (number + 1) item body items
    | none => .error (.noItems template number v.kind)

/-- Writes parts that follow each other. -/
def renderParts (template : String) (context : Context) (number : Nat) :
    List Part → Except Fault (List String)
  | [] => .ok []
  | part :: rest => do
    let first ← part.render template context number
    let more ← renderParts template context (number + part.height) rest
    return first ++ more

/-- Writes a block, whose first source line has a number. -/
def Block.render (template : String) (context : Context) (number : Nat) :
    Block → Except Fault (List String)
  | .part p => p.render template context number
  | .choice condition yes no => do
    let v ← valueOf template context number condition
    if v.holds then renderParts template context (number + 1) yes
    else renderParts template context (number + heightOf yes + 2) no

/-- Writes blocks that follow each other. -/
def renderBlocks (template : String) (context : Context) (number : Nat) :
    List Block → Except Fault (List String)
  | [] => .ok []
  | block :: rest => do
    let first ← block.render template context number
    let more ← renderBlocks template context (number + block.height) rest
    return first ++ more

end Template

/-- A template with the name that it is asked for by. -/
structure Template where
  name : String
  blocks : List Template.Block
  deriving DecidableEq, Repr

/-- The lines that a template becomes. -/
def Template.lines (template : Template) (context : Template.Context) :
    Except Template.Fault (List String) :=
  Template.renderBlocks template.name context 1 template.blocks

/-- The text that a template becomes, each line of it ended by a line feed. -/
def Template.render (template : Template) (context : Template.Context) :
    Except Template.Fault String := do
  let lines ← template.lines context
  return String.join (lines.map (· ++ "\n"))

end EntityForge

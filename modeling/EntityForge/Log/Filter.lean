import EntityForge.Log
import EntityForge.Text.Blank
import EntityForge.Text.Digits
import EntityForge.Text.Line

/-!
# Log filters

A filter is written as directives with commas between them. Each sets the least level for the lines
that it concerns: `warn` for all of them, `nestgen=debug` for those of an area. The directive that
says most about a line decides; of two that say the same, the later one.
-/

namespace EntityForge.Log

open Text

/-- The lines of an area that a directive concerns. -/
inductive Scope where
  | every
  /-- Those with a detail. -/
  | having (detail : String)
  /-- Those within a span of work, or with a certain detail of one. There are no spans here. -/
  | span
  deriving DecidableEq, Repr

/-- The least level of the lines that it concerns; `none` is above all levels. -/
structure Directive where
  target : String
  scope : Scope
  limit : Option Level
  deriving DecidableEq, Repr

/-- Directives in the order in which they are written. -/
abbrev Filter := List Directive

/-- Reads the limit that a word or a number from zero to five stands for. -/
def limit? (s : List Char) : Option (Option Level) :=
  let digits := match s with
    | '+' :: rest => rest
    | _ => s
  match number? 10 digits with
  | some 0 => some none
  | some (n + 1) => (Level.all[n]?).map some
  | none =>
    let word := s.map Char.toLower
    if word = "off".toList then some none
    else (Level.all.find? fun l => l.word.toList = word).map some

/-- Reads the limit after an equals sign; without one there is no limit. -/
def limitOrTrace? (s : List Char) : Option (Option Level) :=
  if s.isEmpty then some (some .trace) else limit? s

/-- Whether a directive can begin with a character. -/
def isDirectiveStart (c : Char) : Bool :=
  c = '-' || c = ':' || c = '_' || c = '[' || c.isAlphanum || 0x80 ≤ c.toNat

/-- Reads what may follow a scope. -/
def afterScope? : List Char → Option (Option Level)
  | [] => some (some .trace)
  | '=' :: rest => limitOrTrace? rest
  | _ => none

/-- Reads a scope after its opening bracket, with the limit after it. -/
def scope? (s : List Char) : Option (Scope × Option Level) :=
  let isInside (c : Char) := !(c = ']' || c = '\x7b')
  let name := s.takeWhile isInside
  match s.dropWhile isInside with
  | ']' :: rest => (afterScope? rest).map fun l => (.span, l)
  | '\x7b' :: rest =>
    let detail := rest.takeWhile (· ≠ '\x7d')
    match detail.isEmpty, rest.dropWhile (· ≠ '\x7d') with
    | false, '\x7d' :: ']' :: rest =>
      let scope := if name.isEmpty ∧ !detail.contains '=' then
        Scope.having (String.ofList detail) else .span
      (afterScope? rest).map fun l => (scope, l)
    | _, _ => none
  | _ => none

/-- Reads a directive. White space around it does not matter to its shape, but the parts are counted
off from where the white space begins. -/
def Directive.read? (s : List Char) : Option Directive :=
  match trim s with
  | [] => none
  | c :: more =>
    let inner := c :: more
    let isName (c : Char) := !(c = '=' || c = '[')
    let length := (inner.takeWhile isName).length
    let target := String.ofList (s.take length)
    if !isDirectiveStart c then none
    else
      match inner.dropWhile isName with
      | '=' :: _ => (limitOrTrace? (s.drop (length + 1))).map fun l => ⟨target, .every, l⟩
      | '[' :: rest => (scope? rest).map fun p => ⟨target, p.1, p.2⟩
      | _ =>
        match limit? s with
        | some l => some ⟨"", .every, l⟩
        | none => some ⟨String.ofList s, .every, some .trace⟩

/-- Whether a directive concerns a line. -/
def Directive.concerns (line : Line) (d : Directive) : Bool :=
  d.target.toList.isPrefixOf line.area.target.toList &&
    match d.scope with
    | .every => true
    | .having detail => line.hasDetail detail
    | .span => false

/-- Whether a directive says at least as much as another one, of those that concern one line. -/
def Directive.outweighs (d other : Directive) : Bool :=
  if d.target.length = other.target.length then
    match d.scope, other.scope with
    | .having a, .having b => b ≤ a
    | .every, .having _ => false
    | _, _ => true
  else other.target.length < d.target.length

namespace Filter

/-- The filter that sets one level for all lines. -/
def ofLevel (level : Level) : Filter :=
  [⟨"", .every, some level⟩]

/-- Reads a filter. One that is empty lets only errors pass. -/
def read? (text : String) : Option Filter :=
  let pieces := (text.splitOn ",").filter fun piece => !piece.isEmpty
  if pieces.isEmpty then some (ofLevel .error)
  else pieces.mapM fun piece => Directive.read? piece.toList

/-- The filter that a variable asks for, if it is set and well-formed, and else that for a level. -/
def ofVariable (setting : Option String) (fallback : Level) : Filter :=
  (setting.bind read?).getD (ofLevel fallback)

/-- The directive that decides about a line. -/
def decisive? (filter : Filter) (line : Line) : Option Directive :=
  (filter.filter (·.concerns line)).foldl (fun best d =>
    match best with
    | none => some d
    | some b => if d.outweighs b then some d else some b) none

/-- Whether a line is printed. -/
def admits (filter : Filter) (line : Line) : Bool :=
  match (filter.decisive? line).bind (·.limit) with
  | some level => line.level.rank ≤ level.rank
  | none => false

end Filter

end EntityForge.Log

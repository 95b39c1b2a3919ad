import EntityForge.Config.Fault

/-!
# Sections

A section of a configuration is a record with a slot for each key. It is read from a table, where
keys without a slot mean nothing and the first fault in the order of the keys counts, or from a list
that fills the slots by position. A slot that nothing is said about keeps its default.
-/

namespace EntityForge.Config

/-- One setting of a record: the key under which it is found, and how its value is taken up. -/
structure Slot (σ : Type) where
  key : String
  fill : Value → σ → Except Mismatch σ

/-- A record of settings: what it is called where it is wanted, its slots in the order of their
keys, and its slots in the order of their positions. -/
structure Layout (σ : Type) where
  name : String
  byKey : List (Slot σ)
  byPosition : List (Slot σ)

/-- A text. A single character is one. -/
def Value.asText (wanted : String) : Value → Except Mismatch String
  | .text s => .ok s
  | .character c => .ok (String.singleton c)
  | other => .error ⟨[], other, wanted⟩

/-- A truth value. -/
def Value.asTruth : Value → Except Mismatch Bool
  | .truth b => .ok b
  | other => .error ⟨[], other, "a boolean"⟩

/-- Texts, each with the number of its place. -/
def textsFrom (place : Nat) : List Value → Except Mismatch (List String)
  | [] => .ok []
  | v :: rest => do
    let s ← (v.asText "a string").mapError (·.under (toString place))
    return s :: (← textsFrom (place + 1) rest)

/-- A list of texts. -/
def Value.asTexts : Value → Except Mismatch (List String)
  | .list items => textsFrom 0 items
  | other => .error ⟨[], other, "a sequence"⟩

namespace Slot

variable {σ : Type}

/-- A slot that holds a text. -/
def text (key : String) (put : String → σ → σ) : Slot σ where
  key := key
  fill := fun v s => (v.asText "a string").map (put · s)

/-- A slot that holds a path. -/
def path (key : String) (put : String → σ → σ) : Slot σ where
  key := key
  fill := fun v s => (v.asText "path string").map (put · s)

/-- A slot that holds a truth value. -/
def truth (key : String) (put : Bool → σ → σ) : Slot σ where
  key := key
  fill := fun v s => v.asTruth.map (put · s)

/-- A slot that holds texts. -/
def texts (key : String) (put : List String → σ → σ) : Slot σ where
  key := key
  fill := fun v s => v.asTexts.map (put · s)

/-- Fills a slot with what a table says about it. -/
def fillFrom (slot : Slot σ) (entries : Table) (s : σ) : Except Mismatch σ :=
  match entries.lookup slot.key with
  | some v => (slot.fill v s).mapError (·.under slot.key)
  | none => .ok s

/-- Fills slots with values in their order; the first value has a place with a number. -/
def fillInOrder (place : Nat) : List (Slot σ) → List Value → σ → Except Mismatch σ
  | slot :: slots, v :: values, s => do
    let s ← (slot.fill v s).mapError (·.under (toString place))
    fillInOrder (place + 1) slots values s
  | _, _, s => .ok s

end Slot

/-- Reads a record over its defaults. -/
def Layout.read {σ : Type} (layout : Layout σ) (v : Value) (defaults : σ) : Except Mismatch σ :=
  match v with
  | .table entries => layout.byKey.foldlM (fun s slot => slot.fillFrom entries s) defaults
  | .list items => Slot.fillInOrder 0 layout.byPosition items defaults
  | other => .error ⟨[], other, layout.name⟩

/-- A slot that holds a record. -/
def Slot.record {σ τ : Type} (key : String) (layout : Layout τ) (get : σ → τ) (put : τ → σ → σ) :
    Slot σ where
  key := key
  fill := fun v s => (layout.read v (get s)).map (put · s)

end EntityForge.Config

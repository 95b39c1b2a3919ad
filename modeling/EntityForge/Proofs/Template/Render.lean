import EntityForge.Template.Basic
import Mathlib

/-!
# Rendering templates

A template is rendered if all its names stand for something and it repeats over lists only, on both
sides of each choice. Each line that comes out was a line of the template and begins as that one.
-/

namespace EntityForge

namespace Template

/-! ### Names of a template -/

/-- The name that a part of a line looks up. -/
def Segment.name? : Segment → Option String
  | .text _ => none
  | .value name => some name

/-- The names that a line looks up. -/
def Line.names (line : Line) : List String :=
  line.filterMap Segment.name?

namespace Part

/-- The names that a part looks up, without the one that stands for an item. -/
def names : Part → List String
  | .line segments => Line.names segments
  | .repeated item _ body => (body.flatMap Line.names).filter (· ≠ item)

/-- The lists that a part repeats over. -/
def lists : Part → List String
  | .line _ => []
  | .repeated _ list _ => [list]

/-- The lines of a part. -/
def lines : Part → List Line
  | .line segments => [segments]
  | .repeated _ _ body => body

end Part

namespace Block

/-- The parts of a block, on both sides of a choice. -/
def parts : Block → List Part
  | .part p => [p]
  | .choice _ yes no => yes ++ no

/-- The names that a block looks up. -/
def names (block : Block) : List String :=
  match block with
  | .part p => p.names
  | .choice condition yes no => condition :: (yes ++ no).flatMap Part.names

end Block

/-- Whether a context has all that blocks ask for. -/
structure Covers (context : Context) (blocks : List Block) : Prop where
  names : ∀ name ∈ blocks.flatMap Block.names, (context.lookup name).isSome
  lists : ∀ list ∈ (blocks.flatMap Block.parts).flatMap Part.lists,
    ∃ items, context.lookup list = some (.list items)

/-! ### Lines of the output -/

/-- Whether a line of the output begins as a line of a template. -/
def Line.Begins (s : String) : Line → Prop
  | [] => s = ""
  | .text t :: _ => t.toList <+: s.toList
  | .value _ :: _ => True

/-- Whether each line of the output begins as a line of a template. -/
def ComesFrom (lines : List Line) (ss : List String) : Prop :=
  ∀ s ∈ ss, ∃ line ∈ lines, Line.Begins s line

/-- What comes from few lines comes from many. -/
lemma ComesFrom.mono {few many : List Line} {ss : List String} (h : ComesFrom few ss)
    (sub : few ⊆ many) : ComesFrom many ss := by
  intro s mem
  obtain ⟨line, here, begins⟩ := h s mem
  exact ⟨line, sub here, begins⟩

/-- What comes from lines and from others comes from all of them. -/
lemma ComesFrom.append {first others : List Line} {ss more : List String}
    (h : ComesFrom first ss) (h' : ComesFrom others more) :
    ComesFrom (first ++ others) (ss ++ more) :=
  List.forall_mem_append.mpr ⟨h.mono (List.subset_append_left _ _),
    h'.mono (List.subset_append_right _ _)⟩

variable (template : String) {context : Context}

/-! ### Templates that can be rendered -/

/-- A name that the context knows has a value. -/
lemma exists_valueOf {name : String} (known : (context.lookup name).isSome) (number : Nat) :
    ∃ v, valueOf template context number name = .ok v := by
  obtain ⟨v, found⟩ := Option.isSome_iff_exists.mp known
  exact ⟨v, by rw [valueOf, found]⟩

/-- A line is rendered if the context knows its names, and begins as the line does. -/
lemma Line.exists_render {line : Line} (known : ∀ name ∈ Line.names line, (context.lookup name).isSome)
    (number : Nat) :
    ∃ s, Line.render template context number line = .ok s ∧ Line.Begins s line := by
  induction line with
  | nil => exact ⟨"", rfl, rfl⟩
  | cons segment line ih =>
    cases segment with
    | text t =>
      obtain ⟨after, render, -⟩ := ih known
      refine ⟨t ++ after, by rw [Line.render, render]; rfl, ?_⟩
      rw [Line.Begins, String.toList_append]
      exact List.prefix_append _ _
    | value name =>
      obtain ⟨here, known⟩ := List.forall_mem_cons.mp known
      obtain ⟨v, value⟩ := exists_valueOf template here number
      obtain ⟨after, render, -⟩ := ih known
      exact ⟨v.shown ++ after, by rw [Line.render, value, render]; rfl, trivial⟩

/-- Lines are rendered if the context knows their names. -/
lemma exists_renderLines {lines : List Line}
    (known : ∀ name ∈ lines.flatMap Line.names, (context.lookup name).isSome) (number : Nat) :
    ∃ ss, renderLines template context number lines = .ok ss ∧ ComesFrom lines ss := by
  induction lines generalizing number with
  | nil => exact ⟨[], rfl, nofun⟩
  | cons line lines ih =>
    rw [List.flatMap_cons, List.forall_mem_append] at known
    obtain ⟨s, first, begins⟩ := Line.exists_render template known.1 number
    obtain ⟨ss, more, comes⟩ := ih known.2 (number + 1)
    have here : ComesFrom [line] [s] :=
      List.forall_mem_singleton.mpr ⟨line, List.mem_singleton_self line, begins⟩
    exact ⟨s :: ss, by rw [renderLines, first, more]; rfl, here.append comes⟩

/-- In a repetition the name of the item stands for the item, and every other one for what it did. -/
lemma lookup_item (item name : String) (v : Value) (context : Context) :
    List.lookup name ((item, v) :: context) =
      if name = item then some v else context.lookup name := by
  rw [List.lookup_cons]
  split_ifs with same
  · rw [same, beq_self_eq_true]
  · rw [beq_eq_false_iff_ne.mpr same]

/-- Whatever the items are, their name stands for something. -/
lemma exists_renderItems {item : String} {body : List Line}
    (known : ∀ name ∈ (body.flatMap Line.names).filter (· ≠ item), (context.lookup name).isSome)
    (number : Nat) (items : List Value) :
    ∃ ss, renderItems template context number item body items = .ok ss ∧ ComesFrom body ss := by
  induction items with
  | nil => exact ⟨[], rfl, nofun⟩
  | cons v items ih =>
    have inside : ∀ name ∈ body.flatMap Line.names,
        (List.lookup name ((item, v) :: context)).isSome := by
      intro name mem
      rw [lookup_item]
      split_ifs with same
      · rfl
      · exact known name (List.mem_filter.mpr ⟨mem, decide_eq_true same⟩)
    obtain ⟨once, first, comes⟩ := exists_renderLines template inside number
    obtain ⟨more, others, follow⟩ := ih
    exact ⟨once ++ more, by rw [renderItems, first, others]; rfl,
      List.forall_mem_append.mpr ⟨comes, follow⟩⟩

/-- A part is rendered if the context knows its names and its lists. -/
lemma Part.exists_render {part : Part} (known : ∀ name ∈ part.names, (context.lookup name).isSome)
    (lists : ∀ list ∈ part.lists, ∃ items, context.lookup list = some (.list items))
    (number : Nat) :
    ∃ ss, part.render template context number = .ok ss ∧ ComesFrom part.lines ss := by
  cases part with
  | line line =>
    obtain ⟨s, render, begins⟩ := Line.exists_render template known number
    exact ⟨[s], by rw [Part.render, render]; rfl,
      List.forall_mem_singleton.mpr ⟨line, List.mem_singleton_self line, begins⟩⟩
  | repeated item list body =>
    obtain ⟨items, found⟩ := lists list List.mem_cons_self
    obtain ⟨ss, render, comes⟩ := exists_renderItems template known (number + 1) items
    exact ⟨ss, by rw [Part.render, valueOf, found]; exact render, comes⟩

/-- Parts are rendered if the context knows their names and their lists. -/
lemma exists_renderParts {parts : List Part}
    (known : ∀ name ∈ parts.flatMap Part.names, (context.lookup name).isSome)
    (lists : ∀ list ∈ parts.flatMap Part.lists, ∃ items, context.lookup list = some (.list items))
    (number : Nat) : ∃ ss, renderParts template context number parts = .ok ss ∧
      ComesFrom (parts.flatMap Part.lines) ss := by
  induction parts generalizing number with
  | nil => exact ⟨[], rfl, nofun⟩
  | cons part parts ih =>
    rw [List.flatMap_cons, List.forall_mem_append] at known lists
    obtain ⟨first, here, comes⟩ := Part.exists_render template known.1 lists.1 number
    obtain ⟨more, others, follow⟩ := ih known.2 lists.2 (number + part.height)
    exact ⟨first ++ more, by rw [renderParts, here, others]; rfl, comes.append follow⟩

/-- A block is rendered if the context knows its names and its lists. -/
lemma Block.exists_render {block : Block}
    (known : ∀ name ∈ block.names, (context.lookup name).isSome)
    (lists : ∀ list ∈ block.parts.flatMap Part.lists,
      ∃ items, context.lookup list = some (.list items)) (number : Nat) :
    ∃ ss, block.render template context number = .ok ss ∧
      ComesFrom (block.parts.flatMap Part.lines) ss := by
  cases block with
  | part part =>
    rw [Block.parts, List.flatMap_singleton] at lists ⊢
    exact Part.exists_render template known lists number
  | choice condition yes no =>
    rw [Block.names, List.forall_mem_cons, List.flatMap_append, List.forall_mem_append] at known
    rw [Block.parts, List.flatMap_append, List.forall_mem_append] at lists
    rw [Block.parts, List.flatMap_append]
    obtain ⟨v, value⟩ := exists_valueOf template known.1 number
    obtain ⟨ss, chosen, comes⟩ :=
      exists_renderParts template known.2.1 lists.1 (number + 1)
    obtain ⟨ss', other, comes'⟩ :=
      exists_renderParts template known.2.2 lists.2 (number + heightOf yes + 2)
    by_cases holds : v.holds
    · refine ⟨ss, ?_, comes.mono (List.subset_append_left _ _)⟩
      rw [Block.render, value, ← chosen]
      exact if_pos holds
    · refine ⟨ss', ?_, comes'.mono (List.subset_append_right _ _)⟩
      rw [Block.render, value, ← other]
      exact if_neg holds

/-- Blocks are rendered in a context that has all they ask for. -/
lemma exists_renderBlocks {blocks : List Block} (covers : Covers context blocks) (number : Nat) :
    ∃ ss, renderBlocks template context number blocks = .ok ss ∧
      ComesFrom ((blocks.flatMap Block.parts).flatMap Part.lines) ss := by
  obtain ⟨known, lists⟩ := covers
  induction blocks generalizing number with
  | nil => exact ⟨[], rfl, nofun⟩
  | cons block blocks ih =>
    rw [List.flatMap_cons, List.forall_mem_append] at known
    rw [List.flatMap_cons, List.flatMap_append, List.forall_mem_append] at lists
    obtain ⟨first, render, comes⟩ := Block.exists_render template known.1 lists.1 number
    obtain ⟨more, rest, follow⟩ := ih (number + block.height) known.2 lists.2
    refine ⟨first ++ more, by rw [renderBlocks, render, rest]; rfl, ?_⟩
    rw [List.flatMap_cons, List.flatMap_append]
    exact comes.append follow

/-- Lines that are rendered have been rendered one by one. -/
lemma exists_of_renderLines_cons {line : Line} {lines : List Line} {number : Nat} {ss : List String}
    (render : renderLines template context number (line :: lines) = .ok ss) :
    ∃ s more, Line.render template context number line = .ok s ∧
      renderLines template context (number + 1) lines = .ok more ∧ ss = s :: more := by
  rw [renderLines] at render
  cases here : Line.render template context number line with
  | error e =>
    rw [here] at render
    cases render
  | ok s =>
    cases others : renderLines template context (number + 1) lines with
    | error e =>
      rw [here, others] at render
      cases render
    | ok more =>
      rw [here, others] at render
      cases render
      exact ⟨s, more, rfl, rfl, rfl⟩

/-- Blocks that are rendered have been rendered one by one. -/
lemma exists_of_renderBlocks_cons {block : Block} {blocks : List Block} {number : Nat}
    {ss : List String} (render : renderBlocks template context number (block :: blocks) = .ok ss) :
    ∃ first more, block.render template context number = .ok first ∧
      renderBlocks template context (number + block.height) blocks = .ok more ∧
      ss = first ++ more := by
  rw [renderBlocks] at render
  cases here : block.render template context number with
  | error e =>
    rw [here] at render
    cases render
  | ok first =>
    cases others : renderBlocks template context (number + block.height) blocks with
    | error e =>
      rw [here, others] at render
      cases render
    | ok more =>
      rw [here, others] at render
      cases render
      exact ⟨first, more, rfl, rfl, rfl⟩

/-- Blocks before others are rendered as they are without them. -/
lemma renderBlocks_append {front rest : List Block} {number : Nat} {texts more : List String}
    (first : renderBlocks template context number front = .ok texts)
    (others : renderBlocks template context (number + (front.map Block.height).sum) rest =
      .ok more) : renderBlocks template context number (front ++ rest) = .ok (texts ++ more) := by
  induction front generalizing number texts with
  | nil =>
    cases first
    exact others
  | cons block front ih =>
    obtain ⟨s, ss, here, follow, rfl⟩ := exists_of_renderBlocks_cons template first
    rw [List.map_cons, List.sum_cons, ← Nat.add_assoc] at others
    rw [List.cons_append, renderBlocks, here, ih follow others, List.append_assoc]
    rfl

/-- Lines of a template as blocks. -/
def ofLines (lines : List Line) : List Block :=
  lines.map fun l => .part (.line l)

/-- Blocks of one line each are as high as there are lines. -/
lemma sum_height_ofLines (lines : List Line) :
    ((ofLines lines).map Block.height).sum = lines.length := by
  simp [ofLines, Function.comp_def, Block.height, Part.height]

/-- Blocks of one line each are rendered as the lines are. -/
lemma renderBlocks_ofLines (number : Nat) (lines : List Line) :
    renderBlocks template context number (ofLines lines) =
      renderLines template context number lines := by
  induction lines generalizing number with
  | nil => rfl
  | cons line lines ih =>
    rw [ofLines, List.map_cons, renderBlocks, ← ofLines, Block.height, Part.height, ih, renderLines,
      Block.render, Part.render]
    cases Line.render template context number line <;> rfl

end Template

open Template

/-- A template that begins with lines. They are rendered first, and what follows them can be rendered
if the context has all that is asked for there. -/
lemma Template.exists_lines {template : Template} {context : Context} {front : List Line}
    {rest : List Block} {texts : List String}
    (blocks : template.blocks = ofLines front ++ rest)
    (first : renderLines template.name context 1 front = .ok texts)
    (covers : Covers context rest) :
    ∃ more, template.lines context = .ok (texts ++ more) ∧
      template.render context = .ok (String.join ((texts ++ more).map (· ++ "\n"))) ∧
      ComesFrom ((rest.flatMap Block.parts).flatMap Part.lines) more := by
  obtain ⟨more, others, comes⟩ := exists_renderBlocks template.name covers (1 + front.length)
  have all : template.lines context = .ok (texts ++ more) := by
    rw [← sum_height_ofLines] at others
    rw [← renderBlocks_ofLines] at first
    rw [Template.lines, blocks]
    exact renderBlocks_append template.name first others
  exact ⟨more, all, by rw [Template.render, all]; rfl, comes⟩

end EntityForge

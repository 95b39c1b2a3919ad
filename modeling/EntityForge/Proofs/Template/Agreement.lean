import EntityForge.Proofs.Template.Render
import Mathlib

/-!
# Contexts that agree

What a template becomes depends on the names that it asks for and on nothing else: contexts in which
these stand for the same give the same text, or the same fault.
-/

namespace EntityForge

namespace Template

/-- Whether contexts agree on all that blocks ask for. -/
structure Agree (c c' : Context) (blocks : List Block) : Prop where
  names : ∀ name ∈ blocks.flatMap Block.names, c.lookup name = c'.lookup name
  lists : ∀ list ∈ (blocks.flatMap Block.parts).flatMap Part.lists, c.lookup list = c'.lookup list

/-- Contexts with the same beginning agree on what is named there. -/
lemma lookup_eq_of_take_eq {c c' : Context} {n : Nat} (same : c.take n = c'.take n) {name : String}
    (mem : name ∈ (c.take n).map Prod.fst) : c.lookup name = c'.lookup name := by
  obtain ⟨pair, here, rfl⟩ := List.mem_map.mp mem
  obtain ⟨v, found⟩ := Option.isSome_iff_exists.mp
    (List.lookup_isSome_iff.mpr ⟨pair, here, beq_self_eq_true pair.1⟩)
  rw [← List.take_append_drop n c, ← List.take_append_drop n c', List.lookup_append,
    List.lookup_append, ← same, found, Option.some_or, Option.some_or]

/-- Contexts agree on blocks that ask only for names among the first ones, where these are the
same. -/
lemma Agree.of_take_eq {c c' : Context} {blocks : List Block} {n : Nat} (same : c.take n = c'.take n)
    (names : ∀ name ∈ blocks.flatMap Block.names, name ∈ (c.take n).map Prod.fst)
    (lists : ∀ list ∈ (blocks.flatMap Block.parts).flatMap Part.lists,
      list ∈ (c.take n).map Prod.fst) : Agree c c' blocks where
  names name mem := lookup_eq_of_take_eq same (names name mem)
  lists list mem := lookup_eq_of_take_eq same (lists list mem)

variable (template : String) {c c' : Context}

/-- A name has the same value where contexts agree on it. -/
lemma valueOf_congr {name : String} (agree : c.lookup name = c'.lookup name) (number : Nat) :
    valueOf template c number name = valueOf template c' number name := by
  rw [valueOf, agree, valueOf]

/-- A line is rendered alike where contexts agree on its names. -/
lemma Line.render_congr {line : Line}
    (agree : ∀ name ∈ Line.names line, c.lookup name = c'.lookup name) (number : Nat) :
    Line.render template c number line = Line.render template c' number line := by
  induction line with
  | nil => rfl
  | cons segment line ih =>
    cases segment with
    | text t => rw [Line.render, ih agree, Line.render]
    | value name =>
      obtain ⟨here, agree⟩ := List.forall_mem_cons.mp agree
      rw [Line.render, valueOf_congr template here, ih agree, Line.render]

/-- Lines are rendered alike where contexts agree on their names. -/
lemma renderLines_congr {lines : List Line}
    (agree : ∀ name ∈ lines.flatMap Line.names, c.lookup name = c'.lookup name) (number : Nat) :
    renderLines template c number lines = renderLines template c' number lines := by
  induction lines generalizing number with
  | nil => rfl
  | cons line lines ih =>
    rw [List.flatMap_cons, List.forall_mem_append] at agree
    rw [renderLines, Line.render_congr template agree.1, ih agree.2, renderLines]

/-- The name of an item stands for the item in both contexts. -/
lemma renderItems_congr {item : String} {body : List Line}
    (agree : ∀ name ∈ (body.flatMap Line.names).filter (· ≠ item), c.lookup name = c'.lookup name)
    (number : Nat) (items : List Value) :
    renderItems template c number item body items =
      renderItems template c' number item body items := by
  induction items with
  | nil => rfl
  | cons v items ih =>
    have inside : ∀ name ∈ body.flatMap Line.names,
        List.lookup name ((item, v) :: c) = List.lookup name ((item, v) :: c') := by
      intro name mem
      rw [lookup_item, lookup_item]
      split_ifs with same
      · rfl
      · exact agree name (List.mem_filter.mpr ⟨mem, decide_eq_true same⟩)
    rw [renderItems, renderLines_congr template inside, ih, renderItems]

/-- A part is rendered alike where contexts agree on its names and its lists. -/
lemma Part.render_congr {part : Part}
    (names : ∀ name ∈ part.names, c.lookup name = c'.lookup name)
    (lists : ∀ list ∈ part.lists, c.lookup list = c'.lookup list) (number : Nat) :
    part.render template c number = part.render template c' number := by
  cases part with
  | line line => rw [Part.render, Line.render_congr template names, Part.render]
  | repeated item list body =>
    rw [Part.render, valueOf_congr template (lists list List.mem_cons_self)]
    simp only [Part.render, renderItems_congr template names]

/-- Parts are rendered alike where contexts agree on their names and their lists. -/
lemma renderParts_congr {parts : List Part}
    (names : ∀ name ∈ parts.flatMap Part.names, c.lookup name = c'.lookup name)
    (lists : ∀ list ∈ parts.flatMap Part.lists, c.lookup list = c'.lookup list) (number : Nat) :
    renderParts template c number parts = renderParts template c' number parts := by
  induction parts generalizing number with
  | nil => rfl
  | cons part parts ih =>
    rw [List.flatMap_cons, List.forall_mem_append] at names lists
    rw [renderParts, Part.render_congr template names.1 lists.1, ih names.2 lists.2, renderParts]

/-- A block is rendered alike where contexts agree on its names and its lists. -/
lemma Block.render_congr {block : Block}
    (names : ∀ name ∈ block.names, c.lookup name = c'.lookup name)
    (lists : ∀ list ∈ block.parts.flatMap Part.lists, c.lookup list = c'.lookup list)
    (number : Nat) : block.render template c number = block.render template c' number := by
  cases block with
  | part part =>
    rw [Block.parts, List.flatMap_singleton] at lists
    exact Part.render_congr template names lists number
  | choice condition yes no =>
    rw [Block.names, List.forall_mem_cons, List.flatMap_append, List.forall_mem_append] at names
    rw [Block.parts, List.flatMap_append, List.forall_mem_append] at lists
    rw [Block.render, valueOf_congr template names.1,
      renderParts_congr template names.2.1 lists.1, renderParts_congr template names.2.2 lists.2,
      Block.render]

/-- Blocks are rendered alike where contexts agree on them. -/
lemma renderBlocks_congr {blocks : List Block} (agree : Agree c c' blocks) (number : Nat) :
    renderBlocks template c number blocks = renderBlocks template c' number blocks := by
  obtain ⟨names, lists⟩ := agree
  induction blocks generalizing number with
  | nil => rfl
  | cons block blocks ih =>
    rw [List.flatMap_cons, List.forall_mem_append] at names
    rw [List.flatMap_cons, List.flatMap_append, List.forall_mem_append] at lists
    rw [renderBlocks, Block.render_congr template names.1 lists.1, ih _ names.2 lists.2,
      renderBlocks]

end Template

open Template

/-- A template becomes the same in contexts that agree on what it asks for. -/
theorem Template.render_congr {template : Template} {c c' : Context}
    (agree : Agree c c' template.blocks) : template.render c = template.render c' := by
  rw [Template.render, Template.lines, renderBlocks_congr template.name agree]
  rfl

end EntityForge

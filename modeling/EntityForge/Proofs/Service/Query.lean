import EntityForge.Proofs.Artifact
import EntityForge.Proofs.Template.Line
import Mathlib

/-!
# Methods that find records

A query is a plain call or, if there are models to include, an opened one with a clause that lists them.
A template writes it by a choice, in a method of its own. What is known of the lines of such methods
is enough to find them in a file and to count the clauses there.
-/

namespace EntityForge

open Template (Line Block Part)
open Text (IsWhole)

/-! ### Files as lines -/

/-- The lines of a file. -/
def Artifact.lines (a : Artifact) : List String :=
  (Text.lines a.content.toList).map String.ofList

/-- The lines of the method that begins with a given line. A method ends with its closing brace. -/
def methodLines (head : String) (file : List String) : List String :=
  ((file.dropWhile (· ≠ head)).drop 1).takeWhile (· ≠ "  \x7d")

/-- The lines of a method are those between its head and the brace that ends it. -/
lemma methodLines_eq {head : String} {front body : List String} (first : head ∉ front)
    (inside : "  \x7d" ∉ body) (rest : List String) :
    methodLines head (front ++ head :: (body ++ "  \x7d" :: rest)) = body := by
  have before : ∀ line ∈ front, decide (line ≠ head) = true :=
    fun line mem => decide_eq_true fun same => first (same ▸ mem)
  have within : ∀ line ∈ body, decide (line ≠ "  \x7d") = true :=
    fun line mem => decide_eq_true fun same => inside (same ▸ mem)
  rw [methodLines, List.dropWhile_append_of_pos before, List.dropWhile_cons_of_neg (by simp),
    List.drop_one, List.tail_cons, List.takeWhile_append_of_pos within,
    List.takeWhile_cons_of_neg (by simp), List.append_nil]

/-- A file that is made of lines has these lines. -/
lemma Artifact.lines_eq {a : Artifact} {lines : List String} (content : a.content = joined lines)
    (whole : ∀ line ∈ lines, IsWhole line.toList) : a.lines = lines := by
  have text : (joined lines).toList = (lines.map String.toList).flatMap (· ++ ['\n']) := by
    rw [joined, String.toList_join, List.flatMap_map, List.flatMap_map]
    simp
  rw [Artifact.lines, content, text, Text.lines_flatMap (List.forall_mem_map.mpr whole),
    List.map_map]
  simp

/-! ### Queries -/

/-- The clause of a query that includes models. -/
def includeLines (models : List String) : List String :=
  "      include: \x7b" :: (models.map (fun model => "        " ++ model ++ ": true,") ++
    ["      \x7d,"])

/-- The lines of a query: a plain call if there is nothing to include, or an opened one with the
clause. -/
def queryLines (plain : String) (opened models : List String) : List String :=
  if models = [] then [plain] else opened ++ includeLines models ++ ["    \x7d);"]

/-- What is known of the body of a method that includes models: its lines are deeper than those that
begin and end a method, the clause begins once if there is something to include, and each line is
one. -/
structure IsQuery (models body : List String) : Prop where
  indented : ∀ line ∈ body, "    ".toList <+: line.toList
  clause : body.count "      include: \x7b" = if models = [] then 0 else 1
  whole : ∀ line ∈ body, IsWhole line.toList

/-- What is not as deep is not in the body. -/
lemma IsQuery.not_mem {models body : List String} (h : IsQuery models body) {line : String}
    (flat : ¬ "    ".toList <+: line.toList) : line ∉ body :=
  fun mem => flat (h.indented line mem)

/-- A line in the body of a method that does not begin a clause. -/
structure IsInner (line : String) : Prop where
  indented : "    ".toList <+: line.toList
  other : line ≠ "      include: \x7b"
  whole : IsWhole line.toList

/-- The lines of a query are the body of a method. -/
lemma isQuery_queryLines {plain : String} {opened models : List String} (direct : IsInner plain)
    (inner : ∀ line ∈ opened, IsInner line) (clean : ∀ model ∈ models, '\n' ∉ model.toList) :
    IsQuery models (queryLines plain opened models) := by
  by_cases none : models = []
  · rw [queryLines, if_pos none]
    constructor
    case indented => exact List.forall_mem_singleton.mpr direct.indented
    case clause =>
      rw [if_pos none, List.count_eq_zero, List.mem_singleton]
      exact direct.other.symm
    case whole => exact List.forall_mem_singleton.mpr direct.whole
  · rw [queryLines, if_neg none, includeLines]
    constructor
    case indented =>
      simp only [List.forall_mem_append, List.forall_mem_cons, List.forall_mem_map]
      exact ⟨⟨fun line mem => (inner line mem).indented, by decide, fun model _ => by simp,
        by decide⟩, by decide⟩
    case clause =>
      have others : "      include: \x7b" ∉ opened := fun mem => (inner _ mem).other rfl
      have listed : "      include: \x7b" ∉
          models.map fun model => "        " ++ model ++ ": true," := by
        simp [String.ext_iff]
      rw [if_neg none, List.count_append, List.count_append, List.count_eq_zero.mpr others,
        List.count_cons_self, List.count_append, List.count_eq_zero.mpr listed]
      simp
    case whole =>
      simp only [List.forall_mem_append, List.forall_mem_cons, List.forall_mem_map]
      refine ⟨⟨fun line mem => (inner line mem).whole, by decide, fun model mem => ?_, by decide⟩,
        by decide⟩
      rw [String.toList_append, String.toList_append]
      exact .append (by simp [clean model mem]) (by decide) (by decide)

/-- A file with the two methods that find records. -/
def withQueries (front all one rest : List String) : List String :=
  front ++ "  findAll() \x7b" :: (all ++ "  \x7d" :: ("" ::
    "  findOne(id: number) \x7b" :: (one ++ "  \x7d" :: rest)))

section

variable {front rest all one models : List String} (isAll : IsQuery models all)
  (isOne : IsQuery models one)

include isAll isOne

/-- The methods of such a file. -/
lemma methodLines_withQueries (notAll : "  findAll() \x7b" ∉ front)
    (notOne : "  findOne(id: number) \x7b" ∉ front) :
    methodLines "  findAll() \x7b" (withQueries front all one rest) = all ∧
      methodLines "  findOne(id: number) \x7b" (withQueries front all one rest) = one := by
  have inside : "  findOne(id: number) \x7b" ∉ all := isAll.not_mem (by decide)
  have before : "  findOne(id: number) \x7b" ∉
      front ++ "  findAll() \x7b" :: (all ++ ["  \x7d", ""]) := by
    simp [notOne, inside]
  have again : withQueries front all one rest =
      (front ++ "  findAll() \x7b" :: (all ++ ["  \x7d", ""])) ++
        "  findOne(id: number) \x7b" :: (one ++ "  \x7d" :: rest) := by
    simp [withQueries]
  exact ⟨methodLines_eq notAll (isAll.not_mem (by decide)) _,
    again ▸ methodLines_eq before (isOne.not_mem (by decide)) _⟩

/-- How often a clause that includes models begins in it. -/
lemma count_withQueries (notFront : "      include: \x7b" ∉ front)
    (notRest : "      include: \x7b" ∉ rest) :
    (withQueries front all one rest).count "      include: \x7b" =
      if models = [] then 0 else 2 := by
  have other : ∀ line ∈ ["  findAll() \x7b", "  \x7d", "", "  findOne(id: number) \x7b"],
      line ≠ "      include: \x7b" := by decide
  simp only [List.forall_mem_cons] at other
  obtain ⟨first, closing, blank, second, -⟩ := other
  simp only [withQueries, List.count_append, List.count_cons_of_ne first,
    List.count_cons_of_ne closing, List.count_cons_of_ne blank, List.count_cons_of_ne second,
    isAll.clause, isOne.clause, List.count_eq_zero.mpr notFront, List.count_eq_zero.mpr notRest]
  split_ifs <;> rfl

/-- Each of its lines is one. -/
lemma isWhole_of_mem_withQueries (whole : ∀ line ∈ front ++ rest, IsWhole line.toList) :
    ∀ line ∈ withQueries front all one rest, IsWhole line.toList := by
  have other : ∀ line ∈ ["  findAll() \x7b", "  \x7d", "", "  findOne(id: number) \x7b"],
      IsWhole line.toList := by decide
  simp only [List.forall_mem_cons] at other
  obtain ⟨first, closing, blank, second, -⟩ := other
  rw [List.forall_mem_append] at whole
  simp only [withQueries, List.forall_mem_append, List.forall_mem_cons]
  exact ⟨whole.1, first, isAll.whole, closing, blank, second, isOne.whole, closing, whole.2⟩

end

namespace Template

/-- The choice in a template that writes a query. -/
def query (plain : Line) (opened : List Line) : Block :=
  .choice "includes"
    (opened.map .line ++
      [.line [.text "      include: \x7b"],
        .repeated "include" "includes" [[.text "        ", .value "include", .text ": true,"]],
        .line [.text "      \x7d,"],
        .line [.text "    \x7d);"]])
    [.line plain]

variable {template : String} {context : Context}

/-- Parts that follow each other are blocks that do. -/
lemma renderBlocks_map_part (number : Nat) (parts : List Part) :
    renderBlocks template context number (parts.map .part) =
      renderParts template context number parts := by
  induction parts generalizing number with
  | nil => rfl
  | cons part parts ih => rw [List.map_cons, renderBlocks, ih, renderParts, Block.render, Block.height]

/-- Each model gets a line of its own. -/
lemma renderItems_include (models : List String) (number : Nat) :
    renderItems template context number "include"
      [[.text "        ", .value "include", .text ": true,"]] (models.map .text) =
        .ok (models.map fun model => "        " ++ model ++ ": true,") := by
  induction models with
  | nil => rfl
  | cons model models ih =>
    rw [List.map_cons, renderItems, ih, List.map_cons, String.append_assoc]
    rfl

/-- The clause of a query and its end. -/
lemma renderParts_include {models : List String}
    (includes : context.lookup "includes" = some (.list (models.map .text))) (number : Nat) :
    renderParts template context number
      [.line [.text "      include: \x7b"],
        .repeated "include" "includes" [[.text "        ", .value "include", .text ": true,"]],
        .line [.text "      \x7d,"],
        .line [.text "    \x7d);"]] = .ok (includeLines models ++ ["    \x7d);"]) := by
  have each (n : Nat) : Part.render template context n
      (.repeated "include" "includes" [[.text "        ", .value "include", .text ": true,"]]) =
        .ok (models.map fun model => "        " ++ model ++ ": true,") := by
    rw [Part.render, valueOf, includes]
    exact renderItems_include models (n + 1)
  rw [renderParts, renderParts, each, includeLines, List.cons_append, List.append_assoc]
  rfl

/-- What a query becomes. -/
lemma render_query {models : List String}
    (includes : context.lookup "includes" = some (.list (models.map .text))) {plain : Line}
    {opened : List Line} {call : String} {calls : List String}
    (direct : ∀ number, Line.render template context number plain = .ok call)
    (asked : ∀ number, renderLines template context number opened = .ok calls) (number : Nat) :
    (query plain opened).render template context number = .ok (queryLines call calls models) := by
  rw [query, Block.render, valueOf, includes, queryLines]
  cases models with
  | nil =>
    change renderParts template context _ [.line plain] = _
    rw [renderParts, Part.render, direct]
    rfl
  | cons model models =>
    change renderParts template context (number + 1) _ = _
    rw [← renderBlocks_map_part, List.map_append, List.map_map, if_neg (List.cons_ne_nil _ _),
      List.append_assoc]
    refine renderBlocks_append template ((renderBlocks_ofLines template _ opened).trans (asked _)) ?_
    rw [renderBlocks_map_part, renderParts_include includes]

/-- A method of the service: a head, a query and the closing brace. -/
def method (head : String) (plain : Line) (opened : List Line) : List Block :=
  [.part (.line [.text head]), query plain opened, .part (.line [.text "  \x7d"])]

/-- What a method becomes. -/
lemma render_method {models : List String}
    (includes : context.lookup "includes" = some (.list (models.map .text))) {plain : Line}
    {opened : List Line} {call : String} {calls : List String}
    (direct : ∀ number, Line.render template context number plain = .ok call)
    (asked : ∀ number, renderLines template context number opened = .ok calls) (head : String)
    (number : Nat) : renderBlocks template context number (method head plain opened) =
      .ok (head :: (queryLines call calls models ++ ["  \x7d"])) := by
  have first : renderBlocks template context number [.part (.line [.text head])] = .ok [head] := by
    rw [renderBlocks, Block.render, Part.render, Line.render, Line.render]
    exact congrArg (fun s => Except.ok [s]) String.append_empty
  refine renderBlocks_append template first ?_
  rw [renderBlocks, render_query includes direct asked]
  rfl

/-- The lines among blocks. -/
def linesOf (blocks : List Block) : List Line :=
  blocks.filterMap fun
    | .part (.line l) => some l
    | _ => none

/-- A line that calls an operation on the stored records. -/
def callLine (operation : String) : Line :=
  [.text "    return this.", .value "accessor", .text ".", .value "model_lower", .text operation]

end Template

end EntityForge

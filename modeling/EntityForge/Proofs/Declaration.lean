import EntityForge.Declaration
import EntityForge.Proofs.Field.Declaration
import EntityForge.Proofs.Text.Case
import EntityForge.Proofs.Text.Part
import Mathlib

/-!
# Declarations taken apart

The members of a class are joined with a separator: an empty line where they have decorators, the end
of a line where they have none. No name and no type that is read off a body has a line feed, so the
separator is found between the members and nowhere else.
-/

namespace EntityForge.Declaration

open Text

/-! ### Characters of members -/

/-- A TypeScript type has a line feed only if the type in the schema has one. -/
lemma not_mem_inTypeScript {name : String} (h : '\n' ∉ name.toList) :
    '\n' ∉ (TypeName.inTypeScript name).toList := by
  unfold TypeName.inTypeScript
  split
  all_goals first | decide | exact h

/-- Decorators can be lines. -/
lemma isWhole_of_mem_checks {field : Field} {decorator : String} (mem : decorator ∈ checks field) :
    IsWhole decorator.toList ∧ decorator.toList ≠ [] := by
  have either : decorator = "@IsOptional()" ∨ decorator = "@IsNotEmpty()" ∨
      decorator = "@IsDate()" := by
    obtain rfl | date := List.mem_cons.mp mem
    · split_ifs <;> simp
    · split_ifs at date
      · exact .inr (.inr (List.mem_singleton.mp date))
      · cases date
  obtain rfl | rfl | rfl := either <;> decide +kernel

section

variable {purpose : Purpose} {keepCase : Bool} {body : String} {d : Declaration}
  (mem : d ∈ ofBody purpose keepCase body)

include mem

/-- The name and the type of a member stand on one line, in whatever case the name is. -/
lemma oneLine_of_mem_ofBody : '\n' ∉ d.name.toList ∧ '\n' ∉ d.type.toList := by
  obtain ⟨field, inside, rfl⟩ := List.mem_map.mp mem
  obtain ⟨name, type⟩ := Field.oneLine_of_mem_ofBody (List.mem_filter.mp inside).1
  rw [ofField]
  dsimp only
  refine ⟨?_, not_mem_inTypeScript fun feed => type (Field.mem_of_mem_plainType feed)⟩
  split_ifs
  · exact name
  · rw [String.toList_ofList]
    exact fun feed => name (mem_of_mem_lowerAfter (by decide) feed)

/-- The lines of a member are lines of a text, and none of them is empty. -/
lemma isWhole_of_mem_lines : ∀ l ∈ d.lines, IsWhole l.toList ∧ l.toList ≠ [] := by
  obtain ⟨name, type⟩ := oneLine_of_mem_ofBody mem
  refine List.forall_mem_map.mpr fun s here => ?_
  have whole : IsWhole s.toList ∧ s.toList ≠ [] := by
    obtain here | here := List.mem_append.mp here
    · obtain ⟨field, -, rfl⟩ := List.mem_map.mp mem
      rw [ofField] at here
      dsimp only at here
      split_ifs at here
      · exact isWhole_of_mem_checks here
      · cases here
    · have front : '\n' ∉ (d.name ++ (if d.optional then "?" else "") ++ ": " ++ d.type).toList := by
        split_ifs <;> simp [name, type]
      rw [List.mem_singleton.mp here, signature, String.toList_append]
      exact ⟨IsWhole.append front (by decide) (by decide), by simp⟩
  rw [String.toList_append]
  exact ⟨IsWhole.append (by decide) whole.2 whole.1, List.append_ne_nil_of_right_ne_nil _ whole.2⟩

end

/-! ### Separators -/

/-- An empty line begins nowhere in lines that are not empty, with line feeds between them. -/
lemma spared_intercalate {ls : List (List Char)} (solid : ∀ l ∈ ls, l ≠ [] ∧ '\n' ∉ l)
    (t : List Char) : Spared ['\n', '\n'] (['\n'].intercalate ls) t := by
  induction ls with
  | nil => exact spared_nil
  | cons first ls ih =>
    obtain ⟨⟨-, oneLine⟩, others⟩ := List.forall_mem_cons.mp solid
    cases ls with
    | nil =>
      rw [List.intercalate_singleton]
      exact spared_of_not_mem oneLine
    | cons next ls =>
      rw [List.intercalate_cons_cons, List.append_assoc, List.singleton_append, spared_append,
        spared_cons]
      refine ⟨spared_of_not_mem oneLine, fun pre => ?_, ih others⟩
      -- The line after the first one is not empty, and its first character is no line feed.
      obtain ⟨ne, oneLine⟩ := others next List.mem_cons_self
      obtain ⟨c, rest, rfl⟩ := List.exists_cons_of_ne_nil ne
      have head : '\n' = c := by
        cases ls <;> exact (List.cons_prefix_cons.mp (List.cons_prefix_cons.mp pre).2).1
      exact oneLine (head ▸ List.mem_cons_self)

/-- The text of a declaration as characters. -/
lemma toList_text (d : Declaration) :
    d.text.toList = ['\n'].intercalate (d.lines.map String.toList) := by
  rw [text, String.toList_intercalate]
  rfl

section

variable {purpose : Purpose} {keepCase : Bool} {body : String} {d : Declaration}

/-- The separator of a class begins nowhere in the text of one of its members. -/
lemma spared_text (mem : d ∈ ofBody purpose keepCase body) (t : List Char) :
    Spared purpose.separator.toList d.text.toList t := by
  have solid : ∀ l ∈ d.lines.map String.toList, l ≠ [] ∧ '\n' ∉ l := by
    refine List.forall_mem_map.mpr fun l here => ?_
    obtain ⟨whole, ne⟩ := isWhole_of_mem_lines mem l here
    exact ⟨ne, whole.1⟩
  rw [toList_text]
  by_cases dto : purpose.isDto
  · rw [Purpose.separator, if_pos dto]
    exact spared_intercalate solid t
  · -- Without decorators a declaration is a single line, and that has no line feed.
    obtain ⟨field, -, rfl⟩ := List.mem_map.mp mem
    have none_ : (ofField purpose keepCase field).decorators = [] := if_neg dto
    rw [lines, none_, List.nil_append, List.map_singleton, List.map_singleton] at solid ⊢
    rw [Purpose.separator, if_neg dto, List.intercalate_singleton]
    exact spared_of_not_mem (solid _ (List.mem_singleton_self _)).2

/-- Joined members can be taken apart: splitting at the separator of the class gives back the
declarations of the fields that become members, each of them whole and in their order. The lines of
a declaration are its decorators, then the name, the mark of a member that may be missing, and the
type. -/
theorem split_join (some_ : ofBody purpose keepCase body ≠ []) :
    Text.split purpose.separator.toList (join purpose (ofBody purpose keepCase body)).toList =
        (ofBody purpose keepCase body).map (·.text.toList) ∧
      ∀ d ∈ ofBody purpose keepCase body,
        Text.lines d.text.toList =
          d.decorators.map (fun decorator => ("  " ++ decorator).toList) ++
            [("  " ++
              (d.name ++ (if d.optional then "?" else "") ++ ": " ++ d.type ++ ";")).toList] := by
  constructor
  · have texts : (join purpose (ofBody purpose keepCase body)).toList =
        purpose.separator.toList.intercalate
          ((ofBody purpose keepCase body).map (·.text.toList)) := by
      rw [join, String.toList_intercalate, List.map_map]
      rfl
    have ne : purpose.separator.toList ≠ [] := by
      cases purpose <;> decide
    rw [texts]
    refine split_intercalate ne (mt List.map_eq_nil_iff.mp some_) ?_
    exact List.forall_mem_map.mpr fun d mem => spared_text mem
  · intro d mem
    have whole := isWhole_of_mem_lines mem
    have last : (d.lines.map String.toList).getLast? ≠ some [] := fun empty => by
      obtain ⟨l, here, nil_⟩ := List.mem_map.mp (List.mem_of_getLast? empty)
      exact (whole l here).2 nil_
    have whole' := List.forall_mem_map.mpr fun l here => (whole l here).1
    rw [toList_text, lines_intercalate whole' last, lines, List.map_append, List.map_append,
      List.map_map]
    rfl

/-- Two members with decorators, of which one has two. -/
theorem split_join_create :
    ofBody .create false "Born DateTime\n  Name String?" ≠ [] ∧
      Text.split ['\n', '\n']
          (join .create (ofBody .create false "Born DateTime\n  Name String?")).toList =
        ["  @IsNotEmpty()\n  @IsDate()\n  born: Date;".toList,
          "  @IsOptional()\n  name?: string;".toList] := by
  have some_ : ofBody .create false "Born DateTime\n  Name String?" ≠ [] := by decide +kernel
  refine ⟨some_, (split_join some_).1.trans ?_⟩
  decide +kernel

end

end EntityForge.Declaration

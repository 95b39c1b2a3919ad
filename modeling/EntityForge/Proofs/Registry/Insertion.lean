import EntityForge.Proofs.Registry.Layout
import EntityForge.Proofs.Text.Line
import EntityForge.Registry.Registration
import Mathlib

/-!
# Insertion into a list

What inserting a module does to the text between the brackets of an imports list. An empty list is
filled; a list with entries gets one more after the last, behind a comma.
-/

namespace EntityForge.Registry

open Text

/-- What separates a new entry from the one before it: a space if the list has one line, else a line
feed and spaces or tabs. -/
inductive Separator (inside : List Char) : List Char → Prop where
  | space :
    '\n' ∉ inside →
    Separator inside [' ']
  | newline {indent} :
    '\n' ∈ inside →
    (∀ c ∈ indent, c = ' ' ∨ c = '\t') →
    Separator inside ('\n' :: indent)

/-- What stands between the brackets after a module has been inserted. -/
inductive Extended {document : List Char} {list : ImportsList} (layout : Layout document list)
    (module : List Char) : List Char → Prop where
  | fill {kept blanks} :
    list.entries = [] →
    layout.inside = kept ++ blanks →
    (∀ c ∈ blanks, isBlank c) →
    (∀ c, kept.getLast? = some c → isBlank c = false) →
    Extended layout module (kept ++ '\n' :: (entryIndent ++ (module ++ "\n  ".toList)))
  | append {separator} (entry : LastEntry layout) :
    Separator layout.inside separator →
    Extended layout module (entry.text ++ (if entry.text.getLast? = some ',' then [] else [',']) ++
      separator ++ module ++ entry.rest)

namespace Layout

variable {document : List Char} {list : ImportsList} (layout : Layout document list)

/-- The text between the brackets. -/
lemma slice?_inside : Span.slice? ⟨list.opening.stop, list.closing.start⟩ document =
    some layout.inside := by
  refine slice?_eq_some (layout.text.trans (List.append_cons _ _ _)) ?_ ?_
  · rw [layout.stop_opening, bytes_append, List.length_append]
    rfl
  · rw [layout.stop_opening, layout.start_closing]

/-- An empty list is filled. -/
lemma fill?_eq (module : List Char) :
    list.fill? document module =
      some (layout.before ++ '[' :: (dropEnd isBlank layout.inside ++
        '\n' :: (entryIndent ++ (module ++ "\n  ".toList)) ++ ']' :: layout.after)) := by
  have opening : cut? document list.opening.stop =
      some (layout.before ++ ['['], layout.inside ++ ']' :: layout.after) := by
    refine cut?_eq_some (layout.text.trans (List.append_cons _ _ _)) ?_
    rw [layout.stop_opening, bytes_append, List.length_append]
    rfl
  have closing : cut? document list.closing.stop =
      some (layout.before ++ '[' :: (layout.inside ++ [']']), layout.after) := by
    refine cut?_eq_some (layout.text.trans (by simp)) ?_
    rw [layout.stop_closing, bytes_append, bytes_cons, bytes_append]
    simp [utf8EncodeChar_of_ascii, bytes_cons]
    omega
  rw [ImportsList.fill?, opening, closing, layout.slice?_inside]
  simp

/-- The indentation at a place is spaces and tabs. -/
private lemma mem_indentAt? {position : Nat} {indent : List Char}
    (h : indentAt? document position = some indent) {c : Char} (mem : c ∈ indent) :
    c = ' ' ∨ c = '\t' := by
  obtain ⟨⟨before, after⟩, -, e⟩ := Option.bind_eq_some_iff.mp h
  cases e
  simpa using List.mem_takeWhile_imp mem

/-- The text that is put behind the last entry of a list, after what separates it from there. -/
private def appended (entry : LastEntry layout) (separator module : List Char) : List Char :=
  entry.text ++ (if entry.text.getLast? = some ',' then [] else [',']) ++ separator ++ module ++
    entry.rest

/-- A list with entries gets one more after the last. On a line of its own it is indented like the
last one, if the registry can be cut before the last byte of that. -/
lemma append?_eq (entry : LastEntry layout) (module : List Char) :
    list.append? entry.last document module =
      if '\n' ∈ layout.inside then
        (indentAt? document (entry.last.stop - 1)).map fun found =>
          layout.before ++ '[' :: (layout.appended entry
            ('\n' :: if found.isEmpty then entryIndent else found) module ++ ']' :: layout.after)
      else
        some (layout.before ++ '[' :: (layout.appended entry [' '] module ++
          ']' :: layout.after)) := by
  have ne := entry.text_ne_nil
  have slice : Span.slice? ⟨list.opening.start, list.closing.start⟩ document =
      some ('[' :: layout.inside) := by
    refine slice?_eq_some layout.text layout.start_opening ?_
    rw [layout.start_opening, layout.start_closing, bytes_cons, List.length_append,
      utf8EncodeChar_of_ascii (by decide), List.length_singleton, Nat.add_assoc]
  have last : (layout.before ++ '[' :: entry.text).getLast? = entry.text.getLast? := by
    rw [List.append_cons, List.getLast?_append_of_ne_nil _ ne]
  rw [ImportsList.append?, cut?_eq_some entry.split entry.stop, slice]
  simp only [Option.bind_eq_bind, Option.bind_some, last]
  refine if_congr (by simp) ?_ ?_
  · cases indentAt? document (entry.last.stop - 1) with
    | none => rfl
    | some found => simp [appended]
  · simp [appended]

/-- What is put behind the last entry of a list is an entry of its own. -/
lemma exists_of_append? {module extended : List Char} (entry : LastEntry layout)
    (e : list.append? entry.last document module = some extended) :
    ∃ inside, Extended layout module inside ∧
      extended = layout.before ++ '[' :: (inside ++ ']' :: layout.after) := by
  rw [append?_eq] at e
  split_ifs at e with newline
  · obtain ⟨found, atLast, rfl⟩ := Option.map_eq_some_iff.mp e
    refine ⟨_, .append entry
      (@Separator.newline _ (if found.isEmpty then entryIndent else found) newline ?_), rfl⟩
    intro c mem
    split_ifs at mem
    · exact .inl (by simpa [entryIndent] using mem)
    · exact mem_indentAt? atLast mem
  · exact ⟨_, .append entry (.space newline), (Option.some.inj e).symm⟩

/-- What an insertion does to a registry is done between the brackets of the list. -/
lemma exists_extended {module extended : List Char}
    (e : list.insert? document module = some extended) :
    ∃ inside, Extended layout module inside ∧
      extended = layout.before ++ '[' :: (inside ++ ']' :: layout.after) := by
  rw [ImportsList.insert?] at e
  split at e
  · next empty =>
    rw [layout.fill?_eq] at e
    obtain ⟨blanks, split, blank, solid⟩ := exists_dropEnd isBlank layout.inside
    exact ⟨_, .fill (List.getLast?_eq_none_iff.mp empty) split blank solid,
      (Option.some.inj e).symm⟩
  · next last h =>
    obtain ⟨entry, rfl⟩ := @exists_lastEntry _ _ layout _ h
    exact layout.exists_of_append? entry e

end Layout

end EntityForge.Registry

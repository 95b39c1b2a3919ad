import EntityForge.Proofs.Field.Grammar
import Mathlib

/-!
# Declarations as a normal form

A field is read back from its declaration if only the last of its tokens leaves something open.
Whatever a body looks like, all fields that are read off it are of this kind: where a token leaves
something open, it is the last one of its line. So the declarations of these fields, each on a line
of its own, are a body with the same fields and nothing else.
-/

namespace EntityForge.Field

open Text

/-- A field whose tokens can stand at the end of a line and leave nothing open before it, and of which
only the attributes look like attributes. -/
structure IsReadable (field : Field) : Prop where
  final : ∀ word ∈ field.words, IsFinal word.toList
  closed : ∀ word ∈ field.words.dropLast, IsClosed word.toList
  name : isAttribute field.name.toList = false
  type : isAttribute field.type.toList = false
  attributes : ∀ a ∈ field.attributes, isAttribute a.toList

/-! ### Reading a declaration -/

/-- Words with a space between any two, as tokens with what stands before them. -/
lemma intercalate_eq_flatMap (first : List Char) (others : List String) :
    [' '].intercalate (first :: others.map String.toList) =
      first ++ (others.map (Word.mk [' '])).flatMap Word.text := by
  induction others generalizing first with
  | nil => simp
  | cons next others ih =>
    rw [List.map_cons, List.intercalate_cons_cons, ih, List.map_cons, List.flatMap_cons,
      List.append_assoc]
    rfl

namespace IsReadable

variable {field : Field} (h : field.IsReadable)

include h

/-- The tokens of a field spell the field. -/
lemma ofTokens_words (line : List Char) :
    ofTokens line (field.words.map String.toList) = [.ok field] := by
  have attributes : ∀ a ∈ field.attributes.map String.toList, isAttribute a := by
    simpa using h.attributes
  rw [words, List.map_cons, List.map_cons, ofTokens, h.name, h.type,
    List.takeWhile_eq_self_iff.mpr attributes, List.dropWhile_eq_nil_iff.mpr attributes, ofTokens]
  simp

/-- A declaration is made of closed tokens, a space and a token that can stand at the end. -/
lemma exists_declaration_eq : ∃ (others : List String) (last : String),
    field.words = (field.name :: others) ++ [last] ∧
    field.declaration.toList = (⟨[], field.name⟩ :: others.map (Word.mk [' '])).flatMap Word.text ++
      ([' '] ++ last.toList) ∧
    (∀ word ∈ field.name :: others, IsClosed word.toList) ∧ IsFinal last.toList := by
  obtain ⟨others, last, split⟩ : ∃ others last, field.type :: field.attributes = others ++ [last] :=
    ⟨_, _, (List.dropLast_append_getLast (List.cons_ne_nil _ _)).symm⟩
  have whole : field.words = (field.name :: others) ++ [last] := congrArg (field.name :: ·) split
  have space : " ".toList = [' '] := rfl
  refine ⟨others, last, whole, ?_, fun word mem => h.closed word ?_, h.final last ?_⟩
  · rw [declaration, String.toList_intercalate, space, List.map_cons, intercalate_eq_flatMap, split,
      List.map_append, List.flatMap_append, List.flatMap_cons, List.append_assoc]
    simp [Word.text]
  · rw [whole, List.dropLast_concat]
    exact mem
  · rw [whole]
    exact List.mem_append_right _ (List.mem_singleton_self last)

/-- A declaration that can be read is the only one on its line. -/
lemma ofLine_declaration : ofLine field.declaration.toList = [.ok field] := by
  obtain ⟨others, last, whole, text, closed, final⟩ := h.exists_declaration_eq
  have spaced : ∀ word ∈ (⟨[], field.name⟩ :: others.map (Word.mk [' ']) : List Word),
      IsSpace word.gap := by
    simp [IsSpace, isBlank]
  have blank : ∀ c ∈ [' '], isBlank c := List.forall_mem_singleton.mpr (by decide)
  have breaks : Breaks ([' '] ++ last.toList) := fun c first => Option.some.inj first ▸ by decide
  have apart : ∀ word ∈ others.map (Word.mk [' ']), word.gap ≠ [] := by simp
  have read : tokens field.declaration.toList = field.words.map String.toList := by
    rw [text, tokens_words (by simpa using closed) spaced apart breaks, tokens_append_of_blank blank,
      final.tokens_eq, whole]
    simp
  obtain ⟨name, closed⟩ := List.forall_mem_cons.mp closed
  obtain ⟨c, t, first, solid, -⟩ := name.exists_cons
  rw [List.flatMap_cons, List.append_assoc] at text
  have trimmed : trim field.declaration.toList = field.declaration.toList := by
    refine trim_eq_self (fun d head => ?_) fun d ends => final.solid d ?_
    · rw [text, Word.text, List.nil_append, first] at head
      exact Option.some.inj head ▸ solid
    · rw [text, ← List.append_assoc, ← List.append_assoc,
        List.getLast?_append_of_ne_nil _ final.ne_nil] at ends
      exact ends
  have declares : isSkipped field.declaration.toList = false := by
    rw [text]
    exact name.isSkipped_append h.name (by simp)
      (breaks_words (fun word mem => spaced word (.tail _ mem)) apart breaks)
  rw [ofLine, trimmed, declares, read]
  exact h.ofTokens_words _

/-- A declaration stands on one line. -/
lemma not_mem_declaration : '\n' ∉ field.declaration.toList := by
  obtain ⟨others, last, -, text, closed, final⟩ := h.exists_declaration_eq
  have spaced : ∀ word ∈ (⟨[], field.name⟩ :: others.map (Word.mk [' ']) : List Word),
      IsSpace word.gap := by
    simp [IsSpace, isBlank]
  rw [text, List.mem_append, List.mem_append, not_or, not_or]
  exact ⟨oneLine_words (by simpa using closed) spaced, by simp, final.oneLine⟩

end IsReadable

/-- The declarations of fields, each on a line, are read back, whether or not the last line is
ended. -/
theorem entries_declarations {fields : List Field} (readable : ∀ field ∈ fields, field.IsReadable) :
    entries ("\n".intercalate (fields.map declaration)) = fields.map .ok ∧
      entries (String.join (fields.map (·.declaration ++ "\n"))) = fields.map .ok := by
  have feed : "\n".toList = ['\n'] := rfl
  have each : (fields.map (·.declaration.toList)).flatMap ofLine = fields.map .ok := by
    rw [List.flatMap_map, ← List.flatMap_pure_eq_map]
    exact List.flatMap_congr fun field mem => (readable field mem).ofLine_declaration
  have oneLine : ∀ l ∈ fields.map (·.declaration.toList), '\n' ∉ l :=
    List.forall_mem_map.mpr fun field mem => (readable field mem).not_mem_declaration
  constructor
  · rw [entries, String.toList_intercalate, feed, List.map_map]
    exact (flatMap_ofLine_lines oneLine).trans each
  · -- What stands behind the last line feed is one more line, which is empty.
    have text : (String.join (fields.map (·.declaration ++ "\n"))).toList =
        ['\n'].intercalate (fields.map (·.declaration.toList) ++ [[]]) := by
      rw [intercalate_concat_nil, String.toList_join, List.flatMap_map, List.flatMap_map]
      simp
    have empty : [[]].flatMap ofLine = [] := by decide
    rw [entries, text, flatMap_ofLine_lines (List.forall_mem_append.mpr ⟨oneLine, by simp⟩),
      List.flatMap_append, each, empty, List.append_nil]

/-! ### Fields of a body -/

/-- Of a part of a list the members before the last one come before the last one of the list. -/
lemma dropLast_subset_of_isInfix {α : Type} {part xs : List α} (h : part <:+: xs) :
    part.dropLast ⊆ xs.dropLast := by
  obtain ⟨front, back, rfl⟩ := h
  cases part using List.reverseRecOn with
  | nil => exact List.nil_subset _
  | append_singleton part last =>
    rw [List.dropLast_concat, List.append_assoc, List.append_assoc, ← List.append_assoc,
      List.singleton_append, List.dropLast_append_cons]
    exact fun a mem => List.mem_append_left _ (List.mem_append_right _ mem)

/-- What tokens spell can be read back if only the last one leaves something open. -/
lemma isReadable_of_mem_ofTokens {line : List Char} {ts : List (List Char)} {field : Field}
    (final : ∀ t ∈ ts, IsFinal t) (closed : ∀ t ∈ ts.dropLast, IsClosed t)
    (mem : .ok field ∈ ofTokens line ts) : field.IsReadable := by
  obtain ⟨groups, rest, longest, read⟩ := exists_longest line ts
  obtain ⟨group, here, rfl⟩ : ∃ group ∈ groups, group.field = field := by
    rw [read, List.mem_append] at mem
    obtain mem | mem := mem
    · obtain ⟨group, here, same⟩ := List.mem_map.mp mem
      exact ⟨group, here, Except.ok.inj same⟩
    · split_ifs at mem <;> simp at mem
  have inside : group.words <:+: ts := by
    obtain ⟨front, back, rfl⟩ := List.append_of_mem here
    refine ⟨front.flatMap Group.words, back.flatMap Group.words ++ rest, ?_⟩
    rw [longest.split, List.flatMap_append, List.flatMap_cons]
    simp only [List.append_assoc]
  have spelled : group.field.words = group.words.map String.ofList := rfl
  constructor
  case final =>
    rw [spelled, List.forall_mem_map]
    intro word mem
    rw [String.toList_ofList]
    exact final word (inside.subset mem)
  case closed =>
    rw [spelled, ← List.map_dropLast, List.forall_mem_map]
    intro word mem
    rw [String.toList_ofList]
    exact closed word (dropLast_subset_of_isInfix inside mem)
  case name => exact String.toList_ofList ▸ group.plainName
  case type => exact String.toList_ofList ▸ group.plainType
  case attributes =>
    refine List.forall_mem_map.mpr fun a mem => ?_
    rw [String.toList_ofList]
    exact group.marked a mem

/-- Every field of a body can be read back. -/
lemma isReadable_of_mem_ofBody {body : String} {field : Field} (mem : field ∈ ofBody body) :
    field.IsReadable := by
  obtain ⟨entry, mem, ok⟩ := List.mem_filterMap.mp mem
  obtain rfl : entry = .ok field := by
    cases entry with
    | ok f => exact congrArg _ (Option.some.inj ok)
    | error e => cases ok
  obtain ⟨line, is, mem⟩ := List.mem_flatMap.mp mem
  rw [ofLine] at mem
  split_ifs at mem with skipped
  · cases mem
  · have oneLine : '\n' ∉ trim line := fun feed =>
      not_mem_of_mem_lines is (mem_of_mem_trim feed)
    obtain ⟨final, closed⟩ := forall_mem_tokens oneLine fun _ => isBlank_of_getLast?_trim
    exact isReadable_of_mem_ofTokens final closed mem

/-- The plain type is what stands before the optional mark, without the white space at its ends. -/
lemma toList_plainType (field : Field) :
    field.plainType.toList = trim (field.type.toList.takeWhile (· != '?')) := by
  rw [plainType, String.toList_ofList, getD_before?]

/-- A type up to its optional mark has no other characters than the type. -/
lemma mem_of_mem_plainType {field : Field} {c : Char} (mem : c ∈ field.plainType.toList) :
    c ∈ field.type.toList := by
  rw [toList_plainType] at mem
  exact (List.takeWhile_sublist _).subset (mem_of_mem_trim mem)

/-- The plain type is the bare one with list marks behind it, and the bare one ends with none. -/
lemma exists_elementType (field : Field) :
    (∃ marks, field.plainType.toList =
      field.elementType.toList ++ (List.replicate marks "[]".toList).flatten) ∧
      ¬ "[]".toList <:+ field.elementType.toList := by
  rw [elementType, String.toList_ofList]
  exact exists_dropTrailing (by simp) field.plainType.toList

/-- The name and the type of a field of a body stand on one line. -/
lemma oneLine_of_mem_ofBody {body : String} {field : Field} (mem : field ∈ ofBody body) :
    '\n' ∉ field.name.toList ∧ '\n' ∉ field.type.toList := by
  have final := (isReadable_of_mem_ofBody mem).final
  exact ⟨(final _ List.mem_cons_self).oneLine, (final _ (.tail _ List.mem_cons_self)).oneLine⟩

/-- The declarations of the fields of a body are its normal form: whatever the body looks like, a body
that has them on a line each, whether or not the last line is ended, has the same fields and no line
that holds something else. -/
theorem entries_normal (body : String) :
    entries ("\n".intercalate ((ofBody body).map declaration)) = (ofBody body).map .ok ∧
      entries (String.join ((ofBody body).map (·.declaration ++ "\n"))) =
        (ofBody body).map .ok :=
  entries_declarations fun _ => isReadable_of_mem_ofBody

example : entries ("\n".intercalate ((ofBody "a Int // b\nc [ @d // e\n f").map declaration)) =
    [.ok ⟨"a", "Int", []⟩, .ok ⟨"c", "[ @d // e", []⟩] := by
  decide +kernel

end EntityForge.Field

import EntityForge.Proofs.Field.Print
import Mathlib

/-!
# The grammar of a field line

A line that declares something is read as groups of tokens: a name and a type, which are no
attributes, and then attributes. `Longest` says how far the groups of a line reach, without saying
how they are found. What is read off a line is what its groups and the tokens behind them say.
-/

namespace EntityForge.Field

open Text

/-! ### Groups of tokens -/

/-- The tokens of one field: a name and a type, and what attributes follow them. -/
@[ext]
structure Group where
  name : List Char
  type : List Char
  attributes : List (List Char)
  plainName : isAttribute name = false
  plainType : isAttribute type = false
  marked : ∀ a ∈ attributes, isAttribute a

namespace Group

/-- The tokens of a group, in their order. -/
def words (group : Group) : List (List Char) :=
  group.name :: group.type :: group.attributes

/-- The field that a group declares. -/
def field (group : Group) : Field :=
  ⟨String.ofList group.name, String.ofList group.type, group.attributes.map String.ofList⟩

end Group

/-- Groups that begin some tokens, and what is left of these where no other groups leave less. -/
structure Longest (tokens : List (List Char)) (groups : List Group) (rest : List (List Char)) :
    Prop where
  split : tokens = groups.flatMap Group.words ++ rest
  least : ∀ (others : List Group) more, tokens = others.flatMap Group.words ++ more →
    rest.length ≤ more.length

section

variable {ts rest more : List (List Char)} {groups others : List Group} {group : Group}

/-- Where tokens begin with a group, the first two are its name and its type. -/
lemma eq_words_append {name type : List Char} : name :: type :: ts = group.words ++ rest ↔
    name = group.name ∧ type = group.type ∧ ts = group.attributes ++ rest := by
  simp only [Group.words, List.cons_append, List.cons.injEq]

/-- Groups begin with a token that is no attribute. -/
lemma dropWhile_words :
    (group.words ++ rest).dropWhile isAttribute = group.words ++ rest :=
  List.dropWhile_cons_of_neg (by simp [group.plainName])

/-- The attributes of a group end where the next group begins. -/
lemma dropWhile_groups : (groups.flatMap Group.words).dropWhile isAttribute =
    groups.flatMap Group.words := by
  cases groups with
  | nil => rfl
  | cons group groups => exact dropWhile_words

/-- No group begins with an attribute. -/
lemma takeWhile_groups : (groups.flatMap Group.words).takeWhile isAttribute = [] := by
  cases groups with
  | nil => rfl
  | cons group groups => exact List.takeWhile_cons_of_neg (by simp [group.plainName])

/-- Tokens are groups in one way at most. -/
lemma groups_inj (h : groups.flatMap Group.words = others.flatMap Group.words) :
    groups = others := by
  induction groups generalizing others with
  | nil =>
    cases others with
    | nil => rfl
    | cons => cases h
  | cons group groups ih =>
    cases others with
    | nil => cases h
    | cons other others =>
      rw [List.flatMap_cons, List.flatMap_cons] at h
      obtain ⟨name, type, h⟩ := eq_words_append.mp h
      rw [List.append_eq] at h
      have taken := congrArg (List.takeWhile isAttribute) h
      have left := congrArg (List.dropWhile isAttribute) h
      rw [List.takeWhile_append_of_pos group.marked, List.takeWhile_append_of_pos other.marked,
        takeWhile_groups, takeWhile_groups, List.append_nil, List.append_nil] at taken
      rw [List.dropWhile_append_of_pos group.marked, List.dropWhile_append_of_pos other.marked,
        dropWhile_groups, dropWhile_groups] at left
      rw [Group.ext name type taken, ih left]

/-- The longest groups of tokens are settled, and so is what is left. -/
lemma Longest.unique (h : Longest ts groups rest) (h' : Longest ts others more) :
    groups = others ∧ rest = more := by
  have size := Nat.le_antisymm (h.least others more h'.split) (h'.least groups rest h.split)
  obtain ⟨same, left⟩ := List.append_inj' (h.split.symm.trans h'.split) size
  exact ⟨groups_inj same, left⟩

/-- Tokens that begin with no group are left as they are. -/
lemma Longest.nil (none : ∀ (group : Group) more, ts ≠ group.words ++ more) : Longest ts [] ts where
  split := rfl
  least := by
    intro others more split
    cases others with
    | nil => exact (congrArg List.length split).le
    | cons group others =>
      rw [List.flatMap_cons, List.append_assoc] at split
      exact absurd split (none group _)

/-- A group that takes all attributes is the first of the longest groups. -/
lemma Longest.cons (attributes : group.attributes = ts.takeWhile isAttribute)
    (h : Longest (ts.dropWhile isAttribute) groups rest) :
    Longest (group.name :: group.type :: ts) (group :: groups) rest where
  split := by
    rw [List.flatMap_cons, List.append_assoc, ← h.split, Group.words, attributes, List.cons_append,
      List.cons_append, List.takeWhile_append_dropWhile]
  least := by
    intro others more split
    have reach := congrArg List.length h.split
    have size := (List.dropWhile_sublist isAttribute (l := ts)).length_le
    rw [List.length_append] at reach
    cases others with
    | nil =>
      have whole := congrArg List.length split
      rw [List.flatMap_nil, List.nil_append, List.length_cons, List.length_cons] at whole
      omega
    | cons other others =>
      rw [List.flatMap_cons, List.append_assoc] at split
      obtain ⟨-, -, split⟩ := eq_words_append.mp split
      -- The other group may leave some attributes to what follows it.
      rw [split, List.dropWhile_append_of_pos other.marked] at h
      cases others with
      | nil =>
        have := (List.dropWhile_sublist isAttribute (l := more)).length_le
        have := h.least [] _ rfl
        rw [List.flatMap_nil, List.nil_append] at this
        omega
      | cons next others =>
        apply h.least (next :: others) more
        rw [List.flatMap_cons, List.append_assoc, dropWhile_words]

end

/-- What is read off tokens are the fields of their longest groups, and a report if anything is
left. -/
lemma exists_longest (line : List Char) (ts : List (List Char)) : ∃ groups rest,
    Longest ts groups rest ∧ ofTokens line ts = groups.map (fun g => .ok g.field) ++
      if rest = [] then [] else [.error ⟨String.ofList line⟩] := by
  fun_induction ofTokens line ts with
  | case1 => exact ⟨[], [], .nil (by simp [Group.words]), rfl⟩
  | case2 t => exact ⟨[], [t], .nil (by simp [Group.words]), rfl⟩
  | case3 name type rest marked =>
    refine ⟨[], name :: type :: rest, .nil ?_, rfl⟩
    intro group more split
    obtain ⟨rfl, rfl, -⟩ := eq_words_append.mp split
    rw [group.plainName, group.plainType] at marked
    cases marked
  | case4 name type rest plain attributes ih =>
    obtain ⟨plainName, plainType⟩ := Bool.or_eq_false_iff.mp (Bool.not_eq_true _ ▸ plain)
    obtain ⟨groups, left, longest, read⟩ := ih
    let group : Group := ⟨name, type, rest.takeWhile isAttribute, plainName, plainType,
      fun a mem => List.mem_takeWhile_imp mem⟩
    have whole : Longest (group.name :: group.type :: rest) (group :: groups) left :=
      longest.cons rfl
    refine ⟨group :: groups, left, whole, ?_⟩
    rw [read]
    rfl

/-! ### Lines -/

/-- A line declares nothing if it is skipped. -/
lemma isFiller_iff {s : List Char} : IsFiller s ↔ isSkipped s = true := by
  constructor
  · intro h
    cases h with
    | blank => rfl
    | comment s => simp [isSkipped]
    | blockAttribute s => simp [isSkipped]
    | opening => rfl
    | closing => rfl
  · simp only [isSkipped, Bool.or_eq_true, List.isEmpty_iff, List.isPrefixOf_iff_prefix, beq_iff_eq]
    rintro ((((rfl | ⟨rest, rfl⟩) | ⟨rest, rfl⟩) | rfl) | rfl)
    · exact .blank
    · exact .comment rest
    · exact .blockAttribute rest
    · exact .opening
    · exact .closing

/-- What a line contributes to the reading of a body: nothing if it declares nothing, else the
fields of its longest groups, and a report of the trimmed line if these are not the whole of it. -/
inductive Contributes (line : List Char) : List (Except Malformed Field) → Prop where
  | nothing :
    IsFiller (trim line) →
    Contributes line []
  | whole {groups} :
    ¬ IsFiller (trim line) →
    Longest (tokens (trim line)) groups [] →
    Contributes line (groups.map fun g => .ok g.field)
  | broken {groups rest} :
    ¬ IsFiller (trim line) →
    Longest (tokens (trim line)) groups rest →
    rest ≠ [] →
    Contributes line (groups.map (fun g => .ok g.field) ++ [.error ⟨String.ofList (trim line)⟩])

/-- What a line contributes is what is read off it. -/
lemma contributes_iff {line : List Char} {out : List (Except Malformed Field)} :
    Contributes line out ↔ ofLine line = out := by
  obtain ⟨groups, rest, longest, read⟩ := exists_longest (trim line) (tokens (trim line))
  constructor
  · intro h
    rw [ofLine]
    cases h with
    | nothing filler => exact if_pos (isFiller_iff.mp filler)
    | whole declares whole =>
      obtain ⟨rfl, rfl⟩ := longest.unique whole
      rw [if_neg (mt isFiller_iff.mpr declares), read, if_pos rfl, List.append_nil]
    | broken declares broken left =>
      obtain ⟨rfl, rfl⟩ := longest.unique broken
      rw [if_neg (mt isFiller_iff.mpr declares), read, if_neg left]
  · rintro rfl
    rw [ofLine]
    split_ifs with skipped
    · exact .nothing (isFiller_iff.mpr skipped)
    · rw [read]
      split_ifs with left
      · rw [List.append_nil]
        exact .whole (mt isFiller_iff.mp skipped) (left ▸ longest)
      · exact .broken (mt isFiller_iff.mp skipped) longest left

/-- A body is read line by line, and each line contributes what the grammar says: nothing if it
declares nothing, else the fields of its longest groups, and one report if these are not the whole
line. -/
theorem entries_grammar (body : String) (result : List (Except Malformed Field)) :
    entries body = result ↔
      ∃ parts, List.Forall₂ Contributes (lines body.toList) parts ∧ result = parts.flatten := by
  have same : Contributes = fun line out => ofLine line = out := by
    funext line out
    exact propext contributes_iff
  have each (parts : List (List (Except Malformed Field))) :
      List.Forall₂ Contributes (lines body.toList) parts ↔
        (lines body.toList).map ofLine = parts := by
    rw [same, ← List.forall₂_map_left_iff (R := Eq), List.forall₂_eq_eq_eq]
  simp only [each, exists_eq_left']
  exact eq_comm

example : entries "a Int @id b\n // c\n@@map d\n" =
    [.ok ⟨"a", "Int", ["@id"]⟩, .error ⟨"a Int @id b"⟩] := by
  decide +kernel

end EntityForge.Field

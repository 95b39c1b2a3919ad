import EntityForge.Path
import Mathlib

/-!
# Parts of paths

Splitting a path at its slashes is undone by putting slashes between the parts. A path put below
another one consists of the parts of both, and the path of the folder above a file is what stands
before the last slash, as long as the parts there name something.
-/

namespace EntityForge.Path

/-- Whether a part names something in the folder it is looked up in. -/
def IsName (part : List Char) : Prop :=
  isIdle part = false ∧ part ≠ ['.', '.'] ∧ '/' ∉ part

/-! ### Splitting -/

/-- Every path has a part, though it may be empty. -/
lemma parts_ne_nil (s : List Char) : parts s ≠ [] := by
  fun_cases parts s with
  | case1 => exact List.cons_ne_nil _ _
  | case2 => exact List.cons_ne_nil _ _
  | case3 => exact List.cons_ne_nil _ _
  | case4 => exact List.cons_ne_nil _ _

/-- A character that is no slash belongs to the first part. -/
lemma parts_cons {c : Char} (h : c ≠ '/') {s part : List Char} {more : List (List Char)}
    (rest : parts s = part :: more) : parts (c :: s) = (c :: part) :: more := by
  rw [parts, rest]
  exact h

/-- A slash divides the parts. -/
lemma parts_append (s t : List Char) : parts (s ++ '/' :: t) = parts s ++ parts t := by
  induction s with
  | nil => rfl
  | cons c s ih =>
    by_cases slash : c = '/'
    · subst slash
      exact congrArg ([] :: ·) ih
    · obtain ⟨part, more, split⟩ := List.exists_cons_of_ne_nil (parts_ne_nil s)
      rw [split] at ih
      rw [List.cons_append, parts_cons slash ih, parts_cons slash split]
      rfl

/-- A text without slashes is one part. -/
lemma parts_of_not_mem {s : List Char} (h : '/' ∉ s) : parts s = [s] := by
  induction s with
  | nil => rfl
  | cons c s ih =>
    have slash : c ≠ '/' := fun e => h (e ▸ List.mem_cons_self)
    exact parts_cons slash (ih (List.not_mem_of_not_mem_cons h))

/-- Slashes between the parts of a text make up the text. -/
lemma intercalate_parts (s : List Char) : ['/'].intercalate (parts s) = s := by
  induction s with
  | nil => rfl
  | cons c s ih =>
    obtain ⟨part, more, split⟩ := List.exists_cons_of_ne_nil (parts_ne_nil s)
    by_cases slash : c = '/'
    · subst slash
      rw [parts, List.intercalate_cons_of_ne_nil (parts_ne_nil s), ih]
      rfl
    · rw [split] at ih
      rw [parts_cons slash split, ← ih]
      cases more with
      | nil => simp
      | cons next more => simp [List.intercalate]

/-- The parts of texts with slashes between them are the texts, if there is no slash in them. -/
lemma parts_intercalate {ps : List (List Char)} (ne : ps ≠ []) (solid : ∀ part ∈ ps, '/' ∉ part) :
    parts (['/'].intercalate ps) = ps := by
  induction ps with
  | nil => exact absurd rfl ne
  | cons part more ih =>
    obtain ⟨first, others⟩ := List.forall_mem_cons.mp solid
    by_cases empty : more = []
    · rw [empty, List.intercalate_singleton, parts_of_not_mem first]
    · rw [List.intercalate_cons_of_ne_nil empty, List.append_assoc, List.singleton_append,
        parts_append, parts_of_not_mem first, ih empty others]
      rfl

/-- The parts of the path to a place are the names on the way, behind the root. -/
lemma exists_parts_ofNames {names : List String} (named : ∀ name ∈ names, IsName name.toList) :
    ∃ ps, parts (ofNames names).toList = [] :: ps ∧
      (ps = names.map String.toList ∨ names = [] ∧ ps = [[]]) := by
  have text : (ofNames names).toList = '/' :: ['/'].intercalate (names.map String.toList) := by
    rw [ofNames, String.toList_append, String.toList_intercalate]
    rfl
  rw [text, parts]
  by_cases empty : names = []
  · exact ⟨[[]], by rw [empty]; rfl, .inr ⟨empty, rfl⟩⟩
  · refine ⟨_, congrArg _ (parts_intercalate (by simpa using empty) fun part mem => ?_), .inl rfl⟩
    obtain ⟨name, here, rfl⟩ := List.mem_map.mp mem
    exact (named name here).2.2

/-! ### Paths below others -/

/-- What a path begins with if it is put below another one. -/
def lead (base : String) : List Char :=
  if base.toList.isEmpty then []
  else if base.toList.getLast? = some '/' then base.toList
  else base.toList ++ ['/']

/-- A relative path is joined behind the lead of its base. -/
lemma toList_join {path : String} (h : isAbsolute path = false) (base : String) :
    (join base path).toList = lead base ++ path.toList := by
  rw [join, lead, h, if_neg Bool.false_ne_true]
  split_ifs
  · rfl
  · exact String.toList_append
  · rw [String.toList_append, String.toList_append]
    rfl

/-- A path that is put below another one is absolute if that one is. -/
lemma isAbsolute_join {path : String} (h : isAbsolute path = false) (base : String) :
    isAbsolute (join base path) = isAbsolute base := by
  rw [isAbsolute, toList_join h, lead, isAbsolute]
  cases base.toList with
  | nil => exact h
  | cons c s =>
    simp only [List.isEmpty_cons, Bool.false_eq_true, if_false]
    split_ifs <;> rfl

/-- How a path goes on does not make it absolute. -/
lemma isAbsolute_append {path : String} (ne : path ≠ "") (rest : String) :
    isAbsolute (path ++ rest) = isAbsolute path := by
  rw [isAbsolute, String.toList_append, isAbsolute]
  cases split : path.toList with
  | nil => exact absurd (String.toList_eq_nil_iff.mp split) ne
  | cons => rfl

/-- A longer path begins below the same one as a shorter one does. -/
lemma join_append {path : String} (h : isAbsolute path = false) (ne : path ≠ "")
    (base rest : String) : join base (path ++ rest) = join base path ++ rest := by
  apply String.toList_injective
  rw [toList_join ((isAbsolute_append ne rest).trans h), String.toList_append,
    String.toList_append, toList_join h, List.append_assoc]

/-- A path below one that does not end with a slash. -/
lemma join_eq {base path : String} (h : isAbsolute path = false) {c : Char}
    (last : base.toList.getLast? = some c) (slash : c ≠ '/') :
    join base path = base ++ "/" ++ path := by
  have ne : base.toList.isEmpty = false := by
    cases split : base.toList with
    | nil =>
      rw [split] at last
      cases last
    | cons => rfl
  rw [join, h, ne, last, if_neg Bool.false_ne_true, if_neg Bool.false_ne_true,
    if_neg (fun e => slash (Option.some.inj e))]

/-- What a path is put behind is one part more or less, which names nothing. -/
lemma exists_parts_lead (base : String) : ∃ ps : List (List Char),
    (∀ s, parts (lead base ++ s) = ps ++ parts s) ∧
      (parts base.toList = ps ∨ parts base.toList = ps ++ [[]]) := by
  rw [lead]
  split_ifs with empty slash
  · rw [List.isEmpty_iff] at empty
    exact ⟨[], fun _ => rfl, .inr (by rw [empty]; rfl)⟩
  · obtain ⟨front, split⟩ := List.getLast?_eq_some_iff.mp slash
    rw [split]
    refine ⟨parts front, fun s => ?_, .inr (parts_append front [])⟩
    rw [List.append_assoc]
    exact parts_append front s
  · refine ⟨parts base.toList, fun s => ?_, .inl rfl⟩
    rw [List.append_assoc]
    exact parts_append base.toList s

/-! ### Names below a folder -/

/-- Whether the last part of a path names something. -/
def EndsNamed (folder : String) : Prop :=
  ∃ front last, parts folder.toList = front ++ [last] ∧ isIdle last = false

/-- The path that leads from a folder down by names. -/
def below (folder : String) (names : List String) : String :=
  names.foldl (fun path name => path ++ "/" ++ name) folder

/-- A path that goes on by names ends with the last one. -/
lemma below_concat (folder : String) (names : List String) (name : String) :
    below folder (names ++ [name]) = below folder names ++ "/" ++ name := by
  rw [below, List.foldl_append]
  rfl

/-- A path that goes on from a folder is not empty. -/
lemma below_ne_empty {folder : String} (ne : folder ≠ "") (names : List String) :
    below folder names ≠ "" := by
  cases names using List.reverseRecOn with
  | nil => exact ne
  | append_singleton names name =>
    rw [below_concat]
    intro empty
    have slash := (String.append_eq_empty_iff.mp (String.append_eq_empty_iff.mp empty).1).2
    exact absurd slash (by decide)

/-- A name behind a path is its last part. -/
lemma parts_name {name : String} (named : IsName name.toList) (folder : String) :
    parts (folder ++ "/" ++ name).toList = parts folder.toList ++ [name.toList] := by
  have text : (folder ++ "/" ++ name).toList = folder.toList ++ '/' :: name.toList := by
    rw [String.toList_append, String.toList_append, List.append_assoc]
    rfl
  rw [text, parts_append, parts_of_not_mem named.2.2]

/-- A path that ends with a name does not end with a slash. -/
lemma getLast?_name {name : String} (named : IsName name.toList) (folder : String) :
    (folder ++ "/" ++ name).toList.getLast? ≠ some '/' := by
  have ne : name.toList ≠ [] := by
    intro empty
    have idle := named.1
    rw [empty] at idle
    cases idle
  rw [String.toList_append, List.getLast?_append_of_ne_nil _ ne]
  exact fun slash => named.2.2 (List.mem_of_getLast? slash)

/-- A path that ends with a name is not empty. -/
lemma EndsNamed.ne_empty {folder : String} (h : EndsNamed folder) : folder ≠ "" := by
  rintro rfl
  obtain ⟨front, last, split, named⟩ := h
  have ends := List.getLast?_concat (l := front) (a := last)
  rw [← split] at ends
  cases ends
  cases named

/-- A path ends with the name that is put behind it. -/
lemma EndsNamed.name {name : String} (named : IsName name.toList) (folder : String) :
    EndsNamed (folder ++ "/" ++ name) :=
  ⟨_, _, parts_name named folder, named.1⟩

/-- A path that goes on by names still ends with one. -/
lemma EndsNamed.below {folder : String} (h : EndsNamed folder) {names : List String}
    (named : ∀ name ∈ names, IsName name.toList) : EndsNamed (below folder names) := by
  cases names using List.reverseRecOn with
  | nil => exact h
  | append_singleton names name =>
    rw [below_concat]
    exact .name (named name (by simp)) _

/-- The path of the folder that a file is in. -/
lemma EndsNamed.parent?_eq {folder file : String} (h : EndsNamed folder)
    (hfile : IsName file.toList) : parent? (folder ++ "/" ++ file) = some folder := by
  obtain ⟨front, last, split, named⟩ := h
  have all : (parts (folder ++ "/" ++ file).toList).reverse =
      file.toList :: last :: front.reverse := by
    rw [parts_name hfile, split]
    simp
  have keeps : dropIdle (last :: front.reverse) = last :: front.reverse := by
    cases front.reverse with
    | nil => rfl
    | cons => simp [dropIdle, named]
  have kept : (dropIdle (last :: front.reverse)).reverse = parts folder.toList := by
    rw [keeps, split]
    simp
  have other : parts folder.toList ≠ [[]] := by
    intro e
    have ends := List.getLast?_concat (l := front) (a := last)
    rw [← split, e] at ends
    cases ends
    cases named
  have file_kept : dropIdle (file.toList :: last :: front.reverse) =
      file.toList :: last :: front.reverse := by
    rw [dropIdle, hfile.1, if_neg Bool.false_ne_true]
    exact List.cons_ne_nil _ _
  rw [parent?, all, file_kept]
  simp only [kept]
  rw [intercalate_parts, String.ofList_toList]

end EntityForge.Path

import EntityForge.Proofs.Registry.Extension
import Mathlib

/-!
# What a registration adds

A registration adds the code of an import line in front, and a module behind the entries of the
first imports list, and nothing else: the rest of the code and every character other than white
space stay in their order. `Registers` lists the three ways in which a registration can come about.
-/

namespace EntityForge.Registry

open Text

/-- A registry with the import line of an entity, on top if it was missing. -/
def imported (root document : String) (name : EntityName) : List Char :=
  if hasLine document.toList (importLine root name).toList then document.toList
  else (importLine root name).toList ++ '\n' :: document.toList

/-- The ways in which an entity is registered. -/
inductive Registers (root document : String) (name : EntityName) : Registration → Prop where
  | noList :
    ImportsList.find? (imported root document name) = none →
    Registers root document name ⟨String.ofList (imported root document name),
      !hasLine document.toList (importLine root name).toList, false, false⟩
  | present {list} :
    ImportsList.find? (imported root document name) = some list →
    list.hasWord (bytesOf name.module) = true →
    Registers root document name ⟨String.ofList (imported root document name),
      !hasLine document.toList (importLine root name).toList, false, true⟩
  | added {list inside} (layout : Layout (imported root document name) list) :
    ImportsList.find? (imported root document name) = some list →
    list.hasWord (bytesOf name.module) = false →
    Extended layout name.module.toList inside →
    Registers root document name
      ⟨String.ofList (layout.before ++ '[' :: (inside ++ ']' :: layout.after)),
        !hasLine document.toList (importLine root name).toList, true, true⟩

/-- A registration works on the registry with the import line. -/
lemma register?_eq (root document : String) (name : EntityName) :
    register? root document name =
      match ImportsList.find? (imported root document name) with
      | none => some ⟨String.ofList (imported root document name),
          !hasLine document.toList (importLine root name).toList, false, false⟩
      | some list =>
        if list.hasWord (bytesOf name.module) then
          some ⟨String.ofList (imported root document name),
            !hasLine document.toList (importLine root name).toList, false, true⟩
        else
          (list.insert? (imported root document name) name.module.toList).map fun extended =>
            ⟨String.ofList extended, !hasLine document.toList (importLine root name).toList, true,
              true⟩ := by
  have same : (if (!hasLine document.toList (importLine root name).toList) = true then
      (importLine root name).toList ++ '\n' :: document.toList else document.toList) =
      imported root document name := by
    rw [imported]
    cases hasLine document.toList (importLine root name).toList <;> rfl
  rw [register?]
  simp only [same]
  cases ImportsList.find? (imported root document name) with
  | none => rfl
  | some list =>
    dsimp only
    split_ifs
    · rfl
    · cases list.insert? (imported root document name) name.module.toList <;> rfl

/-- A registration that has a result comes about in one of the three ways. -/
lemma registers_of_register? {root document : String} {name : EntityName} {r : Registration}
    (h : register? root document name = some r) : Registers root document name r := by
  rw [register?_eq] at h
  split at h
  · next none =>
    cases h
    exact .noList none
  · next list some =>
    split_ifs at h with word
    · cases h
      exact .present some word
    · obtain ⟨extended, insert, rfl⟩ := Option.map_eq_some_iff.mp h
      obtain ⟨layout⟩ := exists_layout some
      obtain ⟨inside, ext, rfl⟩ := layout.exists_extended insert
      exact .added layout some (Bool.not_eq_true _ ▸ word) ext

/-- A registration has no result if its entry is missing and cannot be inserted. -/
lemma register?_eq_none {root document : String} {name : EntityName} :
    register? root document name = none ↔
      ∃ list, ImportsList.find? (imported root document name) = some list ∧
        list.hasWord (bytesOf name.module) = false ∧
        list.insert? (imported root document name) name.module.toList = none := by
  rw [register?_eq]
  cases ImportsList.find? (imported root document name) with
  | none => simp
  | some list =>
    cases word : list.hasWord (bytesOf name.module) <;> simp [word]

/-- An entity whose import line and module are there already is registered without a change. -/
lemma register?_of_present {root document : String} {name : EntityName}
    (line : hasLine document.toList (importLine root name).toList = true)
    (word : ∀ list, ImportsList.find? document.toList = some list →
      list.hasWord (bytesOf name.module) = true) :
    register? root document name =
      some ⟨document, false, false, (ImportsList.find? document.toList).isSome⟩ := by
  rw [register?]
  simp only [line]
  cases find : ImportsList.find? document.toList with
  | none => simp [find]
  | some list => simp [find, word list find]

section

variable {root document : String} {name : EntityName} (hroot : '\'' ∉ root.toList)
  (title : IsIdentifier name.title) (slug : IsIdentifier name.slug)

include hroot title slug

/-- The code of a registry with its import line. -/
lemma code_imported : code (imported root document name) =
    (if hasLine document.toList (importLine root name).toList then []
      else importCode root name) ++ code document.toList := by
  rw [imported]
  split_ifs
  · rfl
  · exact code_importLine_append hroot title slug document.toList

end

/-- The class of an entity has a name. -/
lemma module_ne_nil (name : EntityName) : name.module.toList ≠ [] := by
  rw [toList_module]
  exact List.append_ne_nil_of_right_ne_nil _ (by simp)

/-- An insertion keeps every character that is not white space. -/
lemma Extended.sublist {document module inside : List Char} {list : ImportsList}
    {layout : Layout document list} (h : Extended layout module inside) :
    (layout.inside.filter (!isBlank ·)).Sublist inside := by
  cases h with
  | @fill kept blanks empty split blank solid =>
    have none : blanks.filter (!isBlank ·) = [] :=
      List.filter_eq_nil_iff.mpr fun c mem => by rw [blank c mem]; decide
    rw [split, List.filter_append, none, List.append_nil]
    exact List.filter_sublist.trans (List.sublist_append_left _ _)
  | append entry sep =>
    rw [entry.inside, List.append_assoc, List.append_assoc, List.append_assoc]
    refine List.filter_sublist.trans ((List.Sublist.refl _).append ?_)
    rw [← List.append_assoc, ← List.append_assoc]
    exact List.sublist_append_right _ _

namespace Registers

variable {root document : String} {name : EntityName} {r : Registration}

/-- Whether the import line is added depends on the lines of the registry. -/
lemma importAdded_eq (h : Registers root document name r) :
    r.importAdded = !hasLine document.toList (importLine root name).toList := by
  cases h <;> rfl

/-- A registry with its import line keeps its own characters. -/
lemma sublist_imported (root document : String) (name : EntityName) :
    document.toList.Sublist (imported root document name) := by
  rw [imported]
  split_ifs
  · exact List.Sublist.refl _
  · exact (List.sublist_cons_self _ _).trans (List.sublist_append_right _ _)

/-- A registration keeps every character that is not white space. -/
lemma sublist (h : Registers root document name r) :
    (document.toList.filter (!isBlank ·)).Sublist r.document.toList := by
  have kept := sublist_imported root document name
  cases h with
  | noList | present =>
    rw [String.toList_ofList]
    exact List.filter_sublist.trans kept
  | @added list inside layout find word ext =>
    have solid := kept.filter (!isBlank ·)
    rw [layout.text, List.filter_append, List.filter_cons_of_pos (by decide),
      List.filter_append] at solid
    rw [String.toList_ofList]
    refine solid.trans (List.filter_sublist.append (List.Sublist.cons_cons _ ?_))
    exact ext.sublist.append List.filter_sublist

/-- A registration that says it changes nothing leaves the registry as it is. -/
lemma document_eq (h : Registers root document name r) (none : r.isChange = false) :
    r.document = document := by
  rw [Registration.isChange, Bool.or_eq_false_iff, h.importAdded_eq] at none
  have line : hasLine document.toList (importLine root name).toList = true := by
    simpa using none.1
  cases h with
  | noList | present => rw [imported, if_pos line, String.ofList_toList]
  | added => cases none.2

variable (hroot : '\'' ∉ root.toList) (title : IsIdentifier name.title)
  (slug : IsIdentifier name.slug)

include hroot title slug

/-- Where no entry is added, the code of the import line is all that is new. -/
lemma code_of_not_entryAdded (h : Registers root document name r) (none : r.entryAdded = false) :
    code r.document.toList =
      (if r.importAdded then importCode root name else []) ++ code document.toList := by
  have whole : code (imported root document name) = _ := code_imported hroot title slug
  cases h with
  | noList | present =>
    rw [String.toList_ofList, whole]
    cases hasLine document.toList (importLine root name).toList <;> rfl
  | added => cases none

/-- Where an entry is added, it is the last of the first list. -/
lemma code_of_entryAdded (h : Registers root document name r) (some : r.entryAdded = true) :
    ∃ before entries after,
      IsFirstList (code document.toList) before entries after ∧
      code r.document.toList = (if r.importAdded then importCode root name else []) ++
        (before ++ header ++ extend entries (bytesOf name.module) ++ closer :: after) := by
  have whole : code (imported root document name) = _ := code_imported hroot title slug
  cases h with
  | noList | present => cases some
  | @added list inside layout find word ext =>
    have first := layout.first
    rw [whole] at first
    have free : wordPiece (bytesOf "imports") ∉
        if hasLine document.toList (importLine root name).toList then []
          else importCode root name := by
      split_ifs
      · exact List.not_mem_nil
      · exact imports_not_mem_importCode root name
    obtain ⟨before, preamble, first⟩ := (IsFirstList.append_left_iff free).mp first
    refine ⟨before, _, _, first, ?_⟩
    rw [String.toList_ofList, (ext.isFirstList (module_ne_nil name) title.module).split, preamble]
    cases hasLine document.toList (importLine root name).toList <;> simp [bytesOf]

/-- A registration that adds something adds code. -/
lemma length_code_lt (h : Registers root document name r) (change : r.isChange = true) :
    (code document.toList).length < (code r.document.toList).length := by
  cases added : r.entryAdded with
  | false =>
    rw [Registration.isChange, added, Bool.or_false] at change
    rw [h.code_of_not_entryAdded hroot title slug added, if_pos change, List.length_append]
    simp [importCode]
  | true =>
    obtain ⟨before, entries, after, first, e⟩ := h.code_of_entryAdded hroot title slug added
    have longer := length_lt_extend entries (bytesOf name.module)
    rw [e, first.split]
    simp only [List.length_append, List.length_cons]
    omega

/-- A registration changes the registry if and only if it says so. -/
lemma isChange_iff (h : Registers root document name r) :
    r.isChange = true ↔ r.document ≠ document := by
  constructor
  · intro change same
    have longer := h.length_code_lt hroot title slug change
    rw [same] at longer
    exact Nat.lt_irrefl _ longer
  · intro ne
    by_contra none
    exact ne (h.document_eq (Bool.not_eq_true _ ▸ none))

end Registers

/-- Registering an entity adds to the code of a registry and takes nothing from it. New are the code
of the import line in front if it was missing, and, as the last entry of the first imports list, the
module of the entity if it was missing there, behind a comma if an entry before it needs one. All
characters other than white space keep their order, comments included, and the registry is said to
have changed exactly if it has. -/
theorem register?_frame {root document : String} {name : EntityName} {r : Registration}
    (hroot : '\'' ∉ root.toList) (title : IsIdentifier name.title)
    (slug : IsIdentifier name.slug) (h : register? root document name = some r) :
    (r.entryAdded = false →
      code r.document.toList =
        (if r.importAdded then code (importLine root name).toList else []) ++
          code document.toList) ∧
    (r.entryAdded = true →
      ∃ before entries after,
        IsFirstList (code document.toList) before entries after ∧
        code r.document.toList =
          (if r.importAdded then code (importLine root name).toList else []) ++
            (before ++ header ++ extend entries (bytesOf name.module) ++ closer :: after)) ∧
    (document.toList.filter (!isBlank ·)).Sublist r.document.toList ∧
    (r.isChange = true ↔ r.document ≠ document) := by
  have h := registers_of_register? h
  rw [code_importLine hroot title slug]
  exact ⟨h.code_of_not_entryAdded hroot title slug, h.code_of_entryAdded hroot title slug,
    h.sublist, h.isChange_iff hroot title slug⟩

/-- A second entity goes behind the first one, after a comma. -/
theorem register?_frame_user :
    ∃ r, register? "../modules" "@Module(\x7b imports: [A] \x7d)\n" ⟨"user"⟩ = some r ∧
      r.isChange = true ∧
      ∃ before entries after,
        IsFirstList (code "@Module(\x7b imports: [A] \x7d)\n".toList) before entries after ∧
        code r.document.toList =
          code (importLine "../modules" ⟨"user"⟩).toList ++
            (before ++ header ++ extend entries (Text.bytesOf "UserModule") ++ closer :: after) := by
  have h : register? "../modules" "@Module(\x7b imports: [A] \x7d)\n" ⟨"user"⟩ =
      some ⟨"import \x7b UserModule \x7d from '../modules/user/user.module';\n" ++
        "@Module(\x7b imports: [A, UserModule] \x7d)\n", true, true, true⟩ := by
    decide +kernel
  obtain ⟨-, added, -⟩ := register?_frame (by simp) (by decide +kernel) (by decide +kernel) h
  exact ⟨_, h, rfl, added rfl⟩

end EntityForge.Registry

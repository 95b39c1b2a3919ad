import EntityForge.Artifact
import EntityForge.Proofs.Path
import EntityForge.Proofs.Registry.ImportLine
import EntityForge.Proofs.Schema.Name
import Mathlib

/-!
# Names of entities as parts of paths and as identifiers

A name under which an entity is found is a word, and so is every spelling that is derived from it. A
word is the name of a file or folder, and what a registry takes for one identifier.
-/

namespace EntityForge

open Text

/-! ### Words -/

namespace Schema.IsWord

variable {s : String}

/-- A character that stands in no word does not stand in this one. -/
lemma not_mem (h : IsWord s) {c : Char} (other : ¬ IsWordChar c) : c ∉ s.toList :=
  not_mem_of_isWordChar h.2 other

/-- A word begins with a character of words. -/
lemma exists_cons (h : IsWord s) : ∃ c rest, s.toList = c :: rest ∧ IsWordChar c := by
  obtain ⟨c, rest, split⟩ := List.exists_cons_of_ne_nil
    fun empty => h.1 (String.toList_eq_nil_iff.mp empty)
  exact ⟨c, rest, split, h.2 c (split ▸ List.mem_cons_self)⟩

/-- A word is an identifier. -/
lemma isIdentifier (h : IsWord s) : Registry.IsIdentifier s := by
  intro b mem
  have word := forall_isWordByte_iff.mpr h.2 b mem
  simp only [isWordByte, Registry.isIdentifierByte, Bool.or_eq_true] at word ⊢
  obtain (alphanumeric | underscore) | high := word
  · exact .inl (.inl (.inl alphanumeric))
  · exact .inl (.inl (.inr underscore))
  · exact .inr high

end Schema.IsWord

/-- A text with neither slashes nor dots at its beginning names something. -/
lemma Path.isName_of_cons {s rest : List Char} {c : Char} (split : s = c :: rest) (dot : c ≠ '.')
    (slash : '/' ∉ s) : Path.IsName s := by
  subst split
  refine ⟨?_, ?_, slash⟩
  · rw [Path.isIdle, Bool.or_eq_false_iff]
    refine ⟨rfl, beq_eq_false_iff_ne.mpr fun e => dot ?_⟩
    exact (List.cons.inj e).1
  · exact fun e => dot (List.cons.inj e).1

/-- A word is a name. -/
lemma Schema.IsWord.isName {s : String} (h : Schema.IsWord s) : Path.IsName s.toList := by
  obtain ⟨c, rest, split, word⟩ := h.exists_cons
  refine Path.isName_of_cons split ?_ (h.not_mem (by decide))
  rintro rfl
  exact absurd word (by decide)

/-- A word is no absolute path. -/
lemma Schema.IsWord.isAbsolute {s : String} (h : Schema.IsWord s) : Path.isAbsolute s = false := by
  obtain ⟨c, rest, split, word⟩ := h.exists_cons
  rw [Path.isAbsolute, split]
  refine beq_eq_false_iff_ne.mpr fun e => ?_
  cases e
  exact absurd word (by decide)

/-- A word does not end with a slash. -/
lemma Schema.IsWord.getLast? {s : String} (h : Schema.IsWord s) :
    ∃ c, s.toList.getLast? = some c ∧ c ≠ '/' := by
  obtain ⟨c, rest, split, -⟩ := h.exists_cons
  have ne : s.toList ≠ [] := by
    rw [split]
    exact List.cons_ne_nil c rest
  refine ⟨_, List.getLast?_eq_some_getLast ne, fun slash => ?_⟩
  exact h.not_mem (by decide) (slash ▸ List.getLast_mem ne)

/-! ### Spellings -/

namespace EntityName

variable {name : EntityName} (h : Schema.IsWord name.source)

include h

/-- The slug of a word is a word. -/
lemma isWord_slug : Schema.IsWord name.slug := by
  refine ⟨fun empty => h.1 ?_, ?_⟩
  · rw [slug, String.ofList_eq_empty_iff, lowerCase, lowerAfter_eq_nil] at empty
    exact String.toList_eq_nil_iff.mp empty
  · rw [slug, String.toList_ofList, forall_isWordChar_lowerCase]
    exact h.2

/-- The title of a word has only characters of words. -/
lemma forall_isWordChar_title : ∀ c ∈ name.title.toList, IsWordChar c := by
  rw [title, String.toList_ofList]
  exact isWordChar_of_mem_capitalize h.2

/-- The title of a word is an identifier. -/
lemma isIdentifier_title : Registry.IsIdentifier name.title := by
  intro b mem
  by_cases empty : name.title = ""
  · rw [empty] at mem
    cases mem
  · exact Schema.IsWord.isIdentifier ⟨empty, forall_isWordChar_title h⟩ b mem

end EntityName

/-- The entity that is found under a name has that name, which is a word. -/
lemma Entity.isWord_of_find? {schema requested : String} {entity : Entity}
    (h : Entity.find? schema requested = some entity) :
    entity.name = ⟨requested⟩ ∧ Schema.IsWord entity.name.source := by
  obtain ⟨body, found, rfl⟩ := Option.map_eq_some_iff.mp h
  exact ⟨rfl, Schema.isWord_of_body? found⟩

/-- A name under which an entity is found is a word. -/
lemma Entity.isWord_of_isSome {schema requested : String}
    (declared : (Entity.find? schema requested).isSome) : Schema.IsWord requested := by
  obtain ⟨entity, found⟩ := Option.isSome_iff_exists.mp declared
  obtain ⟨same, word⟩ := isWord_of_find? found
  rwa [same] at word

/-- A registry takes an identifier for one word. -/
lemma Registry.tokens_of_isIdentifier {s : String} (ne : s ≠ "") (h : IsIdentifier s) :
    Registry.tokens s.toList = [⟨.word, 0, bytesOf s⟩] := by
  obtain ⟨b, rest, split⟩ := List.exists_cons_of_ne_nil
    fun empty => ne (String.toList_eq_nil_iff.mp (bytes_eq_nil empty))
  have all : ∀ c ∈ b :: rest, isIdentifierByte c := split ▸ h
  obtain ⟨first, others⟩ := List.forall_mem_cons.mp all
  obtain ⟨quote, space, slash⟩ := of_isIdentifierByte first
  have run : runLength isIdentifierByte rest = rest.length := by
    rw [runLength, List.takeWhile_eq_self_iff.mpr others]
  have read : next b rest = (.word, rest.length) := by
    simp only [next, slash, quote, space, first, run, false_and, if_false, if_true,
      Bool.false_eq_true]
  rw [tokens, split, lexemes_cons, read, List.take_length, List.drop_length, lexemes, bytesOf, split]
  rfl

end EntityForge

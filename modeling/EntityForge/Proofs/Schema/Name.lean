import EntityForge.Proofs.Schema.Block
import EntityForge.Proofs.Schema.Tiling
import EntityForge.Proofs.Text.Case
import Mathlib

/-!
# Names of models

The words of a schema stand between characters of it, so the name of a model is a whole word. A name
under which a model is found has the same lower-case form and is a word as well, whatever was asked
for.
-/

namespace EntityForge.Schema

open Text

/-- Whether a text is a word: it has characters, and all of them are characters of words. -/
def IsWord (s : String) : Prop :=
  s ≠ "" ∧ ∀ c ∈ s.toList, IsWordChar c

/-- Whether a text is a word can be checked character by character. -/
instance (s : String) : Decidable (IsWord s) :=
  @instDecidableAnd _ _ inferInstance (List.decidableBAll IsWordChar s.toList)

/-! ### Words between characters -/

/-- A word of a schema is a stretch of its characters. -/
lemma exists_word {s : List Char} {t : Token} (mem : t ∈ tokens s) (word : t.kind = .word) :
    ∃ a w b, s = a ++ (w ++ b) ∧ t.start = (bytes a).length ∧ t.bytes = bytes w ∧ w ≠ [] ∧
      ∀ c ∈ w, IsWordChar c := by
  obtain ⟨before, after, text, start, run⟩ := exists_isRun mem word
  obtain ⟨starts, stops⟩ := isBoundary_token mem
  obtain ⟨w, taken⟩ := starts.exists_slice stops (Nat.le_add_right _ _)
  obtain ⟨a, b, -, rfl, front, size⟩ := exists_append_of_slice? taken
  -- Both ways of cutting the bytes of the text leave as many before the word and in it.
  have width : t.bytes.length = (bytes w).length := by
    rw [bytes_append, List.length_append, ← front] at size
    exact Nat.add_left_cancel size
  rw [bytes_append, bytes_append] at text
  obtain ⟨-, rest⟩ := List.append_inj text (front.symm.trans start)
  obtain ⟨same, -⟩ := List.append_inj rest width.symm
  refine ⟨a, w, b, rfl, front, same.symm, ?_, ?_⟩
  · rintro rfl
    exact run.ne_nil same.symm
  · rw [← forall_isWordByte_iff, same]
    exact run.inside

/-- The characters of a word. -/
lemma exists_slice_word {s : List Char} {t : Token} (mem : t ∈ tokens s) (word : t.kind = .word) :
    ∃ w, Span.slice? ⟨t.start, t.stop⟩ s = some w ∧ w ≠ [] ∧ ∀ c ∈ w, IsWordChar c := by
  obtain ⟨a, w, b, text, start, size, ne, inside⟩ := exists_word mem word
  exact ⟨w, slice?_eq_some text start (by rw [Lexeme.stop, size]), ne, inside⟩

/-! ### Models -/

/-- The name of a block is a word among the tokens, or the last one before them. -/
lemma exists_name {previous last : Option Token} {ts : List Token} {block : Block}
    (tokens : ∀ t ∈ ts, t.kind.isToken) (before : ∀ t ∈ last, t.kind = .word)
    (mem : block ∈ blocksAfter previous last ts) :
    ∃ t, (t ∈ last ∨ t ∈ ts) ∧ t.kind = .word ∧ block.name = ⟨t.start, t.stop⟩ := by
  fun_induction blocksAfter previous last ts with
  | case1 => cases mem
  | case2 => cases mem
  | case3 previous last t rest opens close after closes ih =>
    obtain mem | mem := List.mem_append.mp mem
    · rw [Option.mem_toList] at mem
      obtain ⟨keyword, name, rfl, rfl, -, rfl⟩ := Block.ofWords?_eq_some.mp mem
      exact ⟨name, .inl rfl, before name rfl, rfl⟩
    · have suffix := (suffix_of_closing? closes).subset
      obtain ⟨u, inside, word, e⟩ := ih (fun u here => tokens u (.tail t (suffix here)))
        (by simp) mem
      obtain none | inside := inside
      · cases none
      · exact ⟨u, .inr (.tail t (suffix inside)), word, e⟩
  | case4 previous last t rest closes ih =>
    obtain ⟨u, inside, word, e⟩ := ih (fun u here => tokens u (.tail t here)) (by simp) mem
    obtain none | inside := inside
    · cases none
    · exact ⟨u, .inr (.tail t inside), word, e⟩
  | case5 previous last t rest opens closes ih =>
    have word : t.kind = .word := Kind.eq_word (tokens t List.mem_cons_self) opens closes
    obtain ⟨u, inside, named, e⟩ := ih (fun u here => tokens u (.tail t here))
      (fun u here => Option.some.inj here ▸ word) mem
    refine ⟨u, .inr ?_, named, e⟩
    obtain here | inside := inside
    · exact Option.some.inj here ▸ List.mem_cons_self
    · exact .tail t inside

/-- A model has a word for a name. -/
lemma isWord_of_mem_models {schema : String} {m : Model} (mem : m ∈ models schema) :
    IsWord m.name := by
  obtain ⟨block, here, rfl⟩ := List.mem_map.mp mem
  have kinds (t : Token) (inside : t ∈ tokens schema.toList) : t.kind.isToken :=
    (List.mem_filter.mp inside).2
  obtain ⟨t, inside, word, name⟩ := exists_name kinds (by simp) here
  obtain none | inside := inside
  · cases none
  obtain ⟨w, slice, ne, inside⟩ := exists_slice_word inside word
  rw [Block.model, name, IsWord, String.toList_ofList, Span.slice, slice]
  exact ⟨fun empty => ne (String.ofList_eq_empty_iff.mp empty), inside⟩

/-- Only words lead to a model, in whatever case they are written. -/
lemma isWord_of_body? {schema requested body : String}
    (h : body? schema requested = some body) : IsWord requested := by
  obtain ⟨m, find, -⟩ := Option.map_eq_some_iff.mp h
  obtain ⟨ne, inside⟩ := isWord_of_mem_models (List.mem_of_find?_eq_some find)
  have same : lowerCase m.name.toList = lowerCase requested.toList := by
    simpa using List.find?_some find
  constructor
  · rintro rfl
    have empty : m.name.toList = [] := by
      rw [← @lowerAfter_eq_nil [], ← lowerCase, same]
      rfl
    exact ne (String.toList_eq_nil_iff.mp empty)
  · rw [← forall_isWordChar_lowerCase, ← same, forall_isWordChar_lowerCase]
    exact inside

end EntityForge.Schema

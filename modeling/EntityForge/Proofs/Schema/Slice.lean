import EntityForge.Proofs.Schema.Depth
import Mathlib

/-!
# Slices of a schema

The words of a schema and the bodies of its models are taken out of it by numbers of bytes. Each of
them lies between two boundaries, so the models can be read from every schema, also by a reader that
gives up at a number that is none.
-/

namespace EntityForge.Schema

open Text

/-- The place of a token. -/
def span (t : Token) : Span :=
  ⟨t.start, t.stop⟩

/-- The words of a schema. -/
def words (schema : List Char) : List Token :=
  (tokens schema).filter (·.kind = .word)

/-- The model that stands at a place, if its name and its body can be taken out of the schema. -/
def Block.model? (schema : List Char) (block : Block) : Option Model := do
  let name ← block.name.slice? schema
  let body ← block.body.slice? schema
  return ⟨String.ofList name, String.ofList body⟩

/-- The words of a schema and its models, if all of them can be taken out of it. -/
def slices? (schema : List Char) : Option (List (List Char) × List Model) := do
  let texts ← (words schema).mapM fun t => (span t).slice? schema
  let found ← (blocks schema).mapM (·.model? schema)
  return (texts, found)

/-- The name and the body of a model lie between boundaries. -/
lemma fits_of_mem_blocks {s : List Char} {block : Block} (mem : block ∈ blocks s) :
    block.name.Fits s ∧ block.body.Fits s := by
  obtain ⟨first, last, model⟩ := exists_modelAt mem
  obtain ⟨name, body⟩ := model.exists_slices
  exact ⟨isSome_slice?_iff.mp (Option.isSome_of_eq_some name),
    isSome_slice?_iff.mp (Option.isSome_of_eq_some body)⟩

/-- A word can be taken out of a schema, and its bytes are those that were read. -/
lemma slice?_span {s : List Char} {t : Token} (mem : t ∈ words s) :
    (span t).slice? s = some ((span t).slice s) ∧ bytes ((span t).slice s) = t.bytes := by
  obtain ⟨mem, word⟩ := List.mem_filter.mp mem
  rw [decide_eq_true_iff] at word
  obtain ⟨a, w, b, text, start, size, -⟩ := exists_word mem word
  have taken : (span t).slice? s = some w :=
    slice?_eq_some text start (by rw [Lexeme.stop, size])
  rw [Span.slice, taken]
  exact ⟨rfl, size.symm⟩

/-- A block of a schema can be sliced out of it. -/
lemma model?_eq {s : List Char} {block : Block} (mem : block ∈ blocks s) :
    block.model? s = some (block.model s) := by
  obtain ⟨first, last, model⟩ := exists_modelAt mem
  obtain ⟨name, body⟩ := model.exists_slices
  rw [Block.model?, name, body]
  rfl

/-- What can be taken from each of some values is taken from all of them. -/
lemma mapM_eq_some {α β : Type} {f : α → Option β} {g : α → β} {as : List α}
    (each : ∀ a ∈ as, f a = some (g a)) : as.mapM f = some (as.map g) := by
  induction as with
  | nil => rfl
  | cons a as ih =>
    obtain ⟨first, others⟩ := List.forall_mem_cons.mp each
    rw [List.mapM_cons, first, ih others]
    rfl

/-- Whatever a schema holds, its words are longest runs of bytes of words and lie between two
boundaries, and so do the name and the body of each of its models. Nothing is refused when all of
them are taken out, and the models are what is found then. -/
theorem slices_fit (schema : String) :
    (∀ t ∈ words schema.toList,
      (span t).Fits schema.toList ∧
      ∃ before after, bytes schema.toList = before ++ (t.bytes ++ after) ∧
        t.start = before.length ∧ IsRun isWordByte before t.bytes after) ∧
    (∀ block ∈ blocks schema.toList,
      block.name.Fits schema.toList ∧ block.body.Fits schema.toList) ∧
    ∃ texts, slices? schema.toList = some (texts, models schema) ∧
      texts.map bytes = (words schema.toList).map (·.bytes) := by
  refine ⟨fun t mem => ⟨?_, ?_⟩, fun block => fits_of_mem_blocks,
    (words schema.toList).map fun t => (span t).slice schema.toList, ?_, ?_⟩
  · exact isSome_slice?_iff.mp (Option.isSome_of_eq_some (slice?_span mem).1)
  · obtain ⟨mem, word⟩ := List.mem_filter.mp mem
    exact exists_isRun mem (of_decide_eq_true word)
  · rw [slices?, mapM_eq_some fun t mem => (slice?_span mem).1,
      mapM_eq_some fun block mem => model?_eq mem]
    rfl
  · rw [List.map_map]
    exact List.map_congr_left fun t mem => (slice?_span mem).2

end EntityForge.Schema

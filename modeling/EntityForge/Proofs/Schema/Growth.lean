import EntityForge.Artifact
import EntityForge.Proofs.Schema.Depth
import Mathlib

/-!
# Schemas that go on

When text is added to a schema, only what the scanner reads last can be read in another way, be it
half a word, an open string or the slash before a comment. A closing brace is a token of its own
whatever follows it, so every model that was complete stays what it was.
-/

namespace EntityForge.Schema

open Text

/-! ### The seam -/

/-- Tokens of a schema stay what they are when the schema goes on, up to some last ones that close
nothing. -/
lemma exists_seam (s t : List Char) : ∃ settled unsettled more,
    tokens s = settled ++ unsettled ∧ tokens (s ++ t) = settled ++ more ∧
      ∀ u ∈ unsettled, u.kind ≠ .closing := by
  obtain read | ⟨ps, p, read⟩ := List.eq_nil_or_concat' (pieces next (bytes s))
  · have empty : s = [] := by
      apply bytes_eq_nil
      rw [← @spell_pieces _ next (bytes s), read, spell_nil]
    rw [empty]
    refine ⟨[], [], tokens t, ?_, rfl, by simp⟩
    rw [tokens, bytes_nil, lexemes]
    rfl
  · have split (more : List UInt8) := scans.lexemes_append_of_pieces read more
    -- A last piece that is a closing brace is settled; any other may turn out to be longer.
    by_cases closes : p.1 = .closing
    · have mem : p ∈ pieces next (bytes s) := read ▸ List.mem_append_right ps (.head _)
      have brace : p.2 = [0x7D] := (brace_bytes mem).2 closes
      have whole (more : List UInt8) : lexemes next 0 (bytes s ++ more) =
          (placed 0 ps ++ [⟨.closing, (spell ps).length, [0x7D]⟩]) ++
            lexemes next ((spell ps).length + 1) more := by
        rw [split, brace, List.append_assoc]
        exact congrArg _ (lexemes_cons _ 0x7D more)
      have alone := whole []
      rw [List.append_nil, lexemes, List.append_nil] at alone
      refine ⟨tokens s, [], (lexemes next ((spell ps).length + 1) (bytes t)).filter
        (·.kind.isToken), (List.append_nil _).symm, ?_, by simp⟩
      rw [tokens, tokens, bytes_append, whole, alone, List.filter_append]
    · refine ⟨(placed 0 ps).filter (·.kind.isToken),
        (lexemes next (spell ps).length p.2).filter (·.kind.isToken),
        (lexemes next (spell ps).length (p.2 ++ bytes t)).filter (·.kind.isToken), ?_, ?_, ?_⟩
      · have alone := split []
        rw [List.append_nil, List.append_nil] at alone
        rw [tokens, alone, List.filter_append]
      · rw [tokens, bytes_append, split, List.filter_append]
      · intro u mem
        have last : pieces next p.2 = [p] := by
          have rest := pieces_spell_of_append read
          rwa [spell_cons, spell_nil, List.append_nil] at rest
        have piece : u.piece ∈ pieces next p.2 := by
          rw [← map_piece_lexemes (spell ps).length]
          exact List.mem_map_of_mem (List.mem_of_mem_filter mem)
        rw [last, List.mem_singleton] at piece
        rw [← piece] at closes
        exact closes

/-! ### Models -/

/-- The models of a schema are the first ones of every schema that goes on from it. -/
lemma blocks_isPrefix (s t : List Char) : blocks s <+: blocks (s ++ t) := by
  obtain ⟨settled, unsettled, more, before, after, noClosing⟩ := exists_seam s t
  rw [blocks, blocks, before, after, blocksAfter_append_eq noClosing]
  exact blocksAfter_isPrefix none none settled more

/-- A model keeps its name and its body when the schema goes on. -/
lemma model_append {s : List Char} {block : Block} (mem : block ∈ blocks s) (t : List Char) :
    block.model (s ++ t) = block.model s := by
  obtain ⟨first, last, model⟩ := exists_modelAt mem
  obtain ⟨name, body⟩ := model.exists_slices
  rw [Block.model, Block.model, Span.slice, Span.slice, slice?_append name, slice?_append body]
  rfl

/-- The models of a schema stay when it is continued. -/
lemma models_isPrefix (schema more : String) : models schema <+: models (schema ++ more) := by
  have same : (blocks schema.toList).map (·.model schema.toList) =
      (blocks schema.toList).map (·.model (schema ++ more).toList) := by
    apply List.map_congr_left
    intro block mem
    rw [String.toList_append, model_append mem]
  rw [models, models, same, String.toList_append]
  exact (blocks_isPrefix _ _).map _

/-- What is looked up stays the same when the schema goes on. -/
lemma body?_append {schema requested body : String} (h : body? schema requested = some body)
    (more : String) : body? (schema ++ more) requested = some body := by
  obtain ⟨m, found, rfl⟩ := Option.map_eq_some_iff.mp h
  obtain ⟨others, split⟩ := models_isPrefix schema more
  rw [body?, ← split, List.find?_append, found]
  rfl

/-- Whatever is added to a schema, the models in it stay the first ones, with their names and
bodies. A model that is found is found again with the same body, and the same files are rendered for
it. -/
theorem models_persist (schema more : String) :
    models schema <+: models (schema ++ more) ∧
      ∀ requested body, body? schema requested = some body →
        body? (schema ++ more) requested = some body ∧
        ∀ settings, (Entity.find? (schema ++ more) requested).map (·.artifacts settings) =
          (Entity.find? schema requested).map (·.artifacts settings) := by
  refine ⟨models_isPrefix schema more, fun requested body found => ?_⟩
  have again := body?_append found more
  refine ⟨again, fun settings => ?_⟩
  rw [Entity.find?, Entity.find?, found, again]

/-- A schema that ends in an open block and, within it, in an open string. -/
theorem models_persist_user :
    body? "model User \x7b id Int \x7d model Role \x7b \"" "user" = some "id Int" ∧
      body? ("model User \x7b id Int \x7d model Role \x7b \"" ++ "\" \x7d") "user" =
        some "id Int" := by
  have found : body? "model User \x7b id Int \x7d model Role \x7b \"" "user" = some "id Int" := by
    decide +kernel
  exact ⟨found, ((models_persist _ "\" \x7d").2 "user" "id Int" found).1⟩

end EntityForge.Schema

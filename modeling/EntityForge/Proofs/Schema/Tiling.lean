import EntityForge.Proofs.Schema.Token
import EntityForge.Proofs.Text.Case
import EntityForge.Proofs.Text.Tiling
import Mathlib

/-!
# Schemas as tokens and gaps

A schema is made up of words and braces with white space, punctuation, comments and strings between
them, and the scanner reads these words and braces and no others. None of them is empty or divides a
character, and the words are longest runs.
-/

namespace EntityForge.Schema

open Text

/-- Before a byte of a word a piece ends with a byte that is none. -/
lemma Complete.exists_concat {k : Kind} {bs : List UInt8} {z : UInt8} (h : Complete k bs z)
    (word : isWordByte z) : ∃ init x, bs = init ++ [x] ∧ isWordByte x = false := by
  cases h with
  | word _ _ stop =>
    rw [word] at stop
    cases stop
  | opening => exact ⟨[], 0x7B, rfl, by decide⟩
  | closing => exact ⟨[], 0x7D, rfl, by decide⟩
  | comment _ line =>
    rw [line] at word
    exact absurd word (by decide)
  | @quoted body => exact ⟨0x22 :: body, 0x22, rfl, by decide⟩
  | @other b _ other => exact ⟨[], b, rfl, (isOtherByte_iff.mp other).2.2.2⟩

/-- A whole word is a run of bytes of words that the rest of the text does not go on with. -/
lemma Whole.runs {bs rest : List UInt8} (whole : Whole .word bs rest) :
    (∀ b ∈ bs, isWordByte b) ∧ ∀ z, rest.head? = some z → isWordByte z = false := by
  cases whole with
  | word _ inside stop => exact ⟨inside, stop⟩

/-- A schema is its words and braces with nothing but strings, line comments and bytes that stand for
nothing between them, and in one way only: `Whole` says where each piece ends, be it before another
one or at the end of the text. The tokens follow one another, and each of them holds something, lies
between two boundaries and is whole where it stands; a word is a longest run of bytes of words. -/
theorem tokens_tiling (schema : List Char) :
    (∀ ts, tokens schema = ts ↔ Tiled Whole Kind.isToken 0 ts (bytes schema)) ∧
    (tokens schema).Pairwise (fun t u => t.stop ≤ u.start) ∧
    ∀ t ∈ tokens schema,
      t.start < t.stop ∧ IsBoundary schema t.start ∧ IsBoundary schema t.stop ∧
      ∃ before after, bytes schema = before ++ (t.bytes ++ after) ∧ t.start = before.length ∧
        Whole t.kind t.bytes after ∧ (t.kind = .word → IsRun isWordByte before t.bytes after) :=
  divides.tiles scans Complete.exists_concat (fun _ => isWordByte_of_le) Whole.runs schema

section

variable {s : List Char} {t : Token} (mem : t ∈ tokens s)

include mem

/-- A token begins and ends at boundaries. -/
lemma isBoundary_token : IsBoundary s t.start ∧ IsBoundary s t.stop := by
  obtain ⟨-, starts, stops, -⟩ := (tokens_tiling s).2.2 t mem
  exact ⟨starts, stops⟩

/-- A word is a longest run of bytes of words. -/
lemma exists_isRun (word : t.kind = .word) :
    ∃ before after, bytes s = before ++ (t.bytes ++ after) ∧ t.start = before.length ∧
      IsRun isWordByte before t.bytes after := by
  obtain ⟨-, -, -, before, after, text, start, -, run⟩ := (tokens_tiling s).2.2 t mem
  exact ⟨before, after, text, start, run word⟩

end

end EntityForge.Schema

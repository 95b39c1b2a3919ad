import EntityForge.Proofs.Registry.Token
import EntityForge.Proofs.Text.Tiling
import Mathlib

/-!
# Registries as tokens and gaps

A registry is made up of tokens with white space and comments between them, and the scanner reads
these tokens and no others. None of them is empty or divides a character, and the words are longest
runs.
-/

namespace EntityForge.Registry

open Text

/-- A whole word is a run of bytes of identifiers that the rest of the text does not go on with. -/
lemma Whole.runs {bs rest : List UInt8} (whole : Whole .word bs rest) :
    (∀ b ∈ bs, isIdentifierByte b) ∧ ∀ z, rest.head? = some z → isIdentifierByte z = false := by
  cases whole with
  | word _ inside stop => exact ⟨inside, stop⟩

/-- A text is its tokens with nothing but white space and comments between them, and in one way
only: `Whole` says where each piece ends, be it before another one or at the end of the text. The
tokens follow one another, and each of them holds something, lies between two boundaries and is whole
where it stands; a word is a longest run of bytes of identifiers. -/
theorem tokens_tile (document : List Char) :
    (∀ ts, tokens document = ts ↔ Tiled Whole Kind.isCode 0 ts (bytes document)) ∧
    (tokens document).Pairwise (fun t u => t.stop ≤ u.start) ∧
    ∀ t ∈ tokens document,
      t.start < t.stop ∧ IsBoundary document t.start ∧ IsBoundary document t.stop ∧
      ∃ before after, bytes document = before ++ (t.bytes ++ after) ∧ t.start = before.length ∧
        Whole t.kind t.bytes after ∧
        (t.kind = .word → IsRun isIdentifierByte before t.bytes after) :=
  divides.tiles scans Complete.exists_concat (fun _ => isIdentifierByte_of_le) Whole.runs document

end EntityForge.Registry

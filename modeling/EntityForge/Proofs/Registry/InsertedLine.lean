import EntityForge.Proofs.Text.Line
import EntityForge.Registry.Registration
import Mathlib

/-!
# Lines around an insertion

How often a line occurs in a registry before and after an insertion: the two counts share the lines
that the insertion does not reach, and differ in those that it makes of the line it is put into.
-/

namespace EntityForge.Registry

open Text

/-- Whether a line is there is whether it occurs at least once. -/
lemma hasLine_iff {s line : List Char} : hasLine s line = true ↔ 0 < lineCount line s := by
  rw [hasLine, List.any_eq_true, lineCount, List.countP_pos_iff]

variable {line : List Char} (ne : line ≠ []) (front back : List Char)

include ne

/-- The counts before and after an empty list is filled. -/
lemma exists_lineCount_fill (kept blanks module : List Char) :
    ∃ others,
      lineCount line (front ++ '[' :: (kept ++ blanks ++ ']' :: back)) = others +
        lineCount line (lastLine (front ++ '[' :: kept) ++ (blanks ++ firstLine (']' :: back))) ∧
      lineCount line (front ++ '[' :: (kept ++ '\n' :: (entryIndent ++ (module ++ "\n  ".toList)) ++
          ']' :: back)) = others + (lineCount line (lastLine (front ++ '[' :: kept)) +
        (lineCount line (entryIndent ++ module) +
          lineCount line ("  ".toList ++ firstLine (']' :: back)))) := by
  obtain ⟨others, count⟩ := exists_lineCount ne (front ++ '[' :: kept) (']' :: back)
  refine ⟨others, ?_, ?_⟩
  · rw [← count]
    simp
  · have new : front ++ '[' :: (kept ++ '\n' :: (entryIndent ++ (module ++ "\n  ".toList)) ++
        ']' :: back) = (front ++ '[' :: kept) ++
          (('\n' :: (entryIndent ++ (module ++ "\n  ".toList))) ++ ']' :: back) := by
      simp
    have lines : ('\n' :: (entryIndent ++ (module ++ "\n  ".toList))) ++ firstLine (']' :: back) =
        '\n' :: ((entryIndent ++ module) ++ '\n' :: ("  ".toList ++ firstLine (']' :: back))) := by
      simp
    rw [new, count, lines, lineCount_append ne, lineCount_append ne]

/-- The counts before and after something is put behind a part of a list. -/
lemma exists_lineCount_append (text rest : List Char) :
    ∃ others,
      lineCount line (front ++ '[' :: (text ++ rest ++ ']' :: back)) = others +
        lineCount line (lastLine (front ++ '[' :: text) ++ firstLine (rest ++ ']' :: back)) ∧
      ∀ new, lineCount line (front ++ '[' :: (text ++ new ++ rest ++ ']' :: back)) = others +
        lineCount line
          (lastLine (front ++ '[' :: text) ++ (new ++ firstLine (rest ++ ']' :: back))) := by
  obtain ⟨others, count⟩ := exists_lineCount ne (front ++ '[' :: text) (rest ++ ']' :: back)
  refine ⟨others, ?_, fun new => ?_⟩
  · rw [← List.nil_append (firstLine _), ← count]
    simp
  · rw [← count]
    simp

end EntityForge.Registry

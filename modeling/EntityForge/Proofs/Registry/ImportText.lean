import EntityForge.Proofs.Registry.Boundary
import EntityForge.Proofs.Registry.Gap
import EntityForge.Proofs.Text.Line
import Mathlib

/-!
# The characters of an import line

What an import line begins and ends with, and which characters it cannot have. If the path to the
output folder has no mark of a comment, and the file name is not empty, then neither has the line.
-/

namespace EntityForge.Registry

open Text

variable {root : String} {name : EntityName}

/-- An import line begins with a letter. -/
lemma head?_importLine (root : String) (name : EntityName) :
    (importLine root name).toList.head? = some 'i' := by
  rw [toList_importLine]
  rfl

/-- An import line ends with a semicolon. -/
lemma getLast?_importLine (root : String) (name : EntityName) :
    (importLine root name).toList.getLast? = some ';' := by
  rw [toList_importLine, List.getLast?_append_of_ne_nil _ (by decide +kernel)]
  decide +kernel

/-- An import line is not empty. -/
lemma importLine_ne_nil (root : String) (name : EntityName) :
    (importLine root name).toList ≠ [] := by
  intro none
  have first := head?_importLine root name
  rw [none] at first
  cases first

/-- An import line has no white space at its ends. -/
lemma trim_importLine (root : String) (name : EntityName) :
    trim (importLine root name).toList = (importLine root name).toList := by
  refine trim_eq_self ?_ ?_
  · intro c first
    rw [head?_importLine] at first
    rw [← Option.some.inj first]
    decide
  · intro c last
    rw [getLast?_importLine] at last
    rw [← Option.some.inj last]
    decide

/-- A character that is none of an identifier stands in an import line only if it stands in the path
to the output folder or in every import line. -/
lemma not_mem_importLine (title : IsIdentifier name.title) (slug : IsIdentifier name.slug) {c : Char}
    (ascii : c.toNat < 0x80) (other : isIdentifierByte c.toUInt8 = false)
    (hroot : c ∉ root.toList) (fixed : c ∉ "import \x7b \x7d from './module';".toList) :
    c ∉ (importLine root name).toList := by
  have hfolder : c ∉ dropEnd (· = '/') root.toList :=
    fun mem => hroot ((List.rdropWhile_prefix _ _).subset mem)
  have hmodule := title.module.not_mem ascii other
  have hslug := slug.not_mem ascii other
  -- The four parts that all import lines have, and the slashes in the path.
  have part (s : String)
      (h : ∀ d ∈ s.toList, d ∈ "import \x7b \x7d from './module';".toList) : c ∉ s.toList :=
    fun mem => fixed (h c mem)
  have slash : c ≠ '/' := fun e => part "/" (by simp) (by simp [e])
  have begins := part "import \x7b " (by simp)
  have middle := part " \x7d from '" (by simp)
  have file := part ".module" (by simp)
  have ends := part "';" (by simp)
  rw [toList_importLine, modulePath]
  simp only [List.mem_append, List.mem_cons, not_or]
  exact ⟨⟨⟨⟨begins, hmodule⟩, middle⟩, ⟨⟨hfolder, slash, hslug⟩, slash, hslug⟩, file⟩, ends⟩

/-- No comment begins in an import line. -/
lemma noComment_importLine (title : IsIdentifier name.title) (slug : IsIdentifier name.slug)
    (ne : name.slug.toList ≠ []) (hroot : NoComment root.toList) :
    NoComment (importLine root name).toList := by
  have noSlash := slug.not_mem (c := '/') (by decide) (by decide)
  have noStar := slug.not_mem (c := '*') (by decide) (by decide)
  have hmodule := title.module.not_mem (c := '/') (by decide) (by decide)
  -- A slash before the name of the folder or file begins no comment.
  have slashed {rest : List Char} (h : NoComment (name.slug.toList ++ rest)) :
      NoComment ('/' :: (name.slug.toList ++ rest)) := by
    refine List.IsChain.cons h ?_
    intro d first hd
    rw [List.head?_append_of_ne_nil _ ne] at first
    have mem := List.mem_of_head? first
    exact ⟨fun e => noSlash (e ▸ mem), fun e => noStar (e ▸ mem)⟩
  have unslashed {part rest : List Char} (hpart : '/' ∉ part) (h : NoComment rest) :
      NoComment (part ++ rest) := by
    refine (noComment_of_not_mem hpart).append h ?_
    intro last
    exact hpart (List.mem_of_getLast? last)
  have file : NoComment (".module".toList ++ "';".toList) :=
    noComment_of_not_mem (by decide +kernel)
  have path := slashed (unslashed noSlash (slashed (unslashed noSlash file)))
  have folder : NoComment (dropEnd (· = '/') root.toList) :=
    List.IsChain.prefix hroot (List.rdropWhile_prefix _ _)
  have edge : (dropEnd (· = '/') root.toList).getLast? ≠ some '/' := by
    intro last
    obtain ⟨-, -, -, kept⟩ := exists_dropEnd (· = '/') root.toList
    exact absurd (kept _ last) (by decide)
  have whole := unslashed (by decide +kernel : '/' ∉ "import \x7b ".toList)
    (unslashed hmodule (unslashed (by decide +kernel : '/' ∉ " \x7d from '".toList)
      (folder.append path edge)))
  rw [toList_importLine, modulePath]
  simpa using whole

end EntityForge.Registry

import EntityForge.Proofs.Registry.ImportText
import EntityForge.Proofs.Registry.InsertedLine
import EntityForge.Proofs.Registry.Registration
import EntityForge.Proofs.Text.Case
import Mathlib

/-!
# Registering an entity twice

The second registration of an entity finds what the first one has made sure of. The module is in the
list that is read again, and the import line is still a line of its own: an insertion could damage it
only at the last entry of the list, and if this is on an import line in code, then the module of the
line is an entry itself.
-/

namespace EntityForge.Registry

open Text

/-- No comment begins in the white space that trimming takes off. -/
private lemma noComment_of_trim {s : List Char} (h : NoComment (trim s)) : NoComment s := by
  obtain ⟨front, back, split, blank, blank'⟩ := exists_trim s
  have noSlash {t : List Char} (blank : ∀ c ∈ t, isBlank c) : '/' ∉ t := by
    intro mem
    exact absurd (blank '/' mem) (by decide)
  have ends : NoComment (trim s ++ back) := by
    refine List.IsChain.append h (noComment_of_not_mem (noSlash blank')) ?_
    rintro c - d first -
    have solid := blank' d (List.mem_of_head? first)
    constructor <;> rintro rfl <;> exact absurd solid (by decide)
  rw [split]
  refine (noComment_of_not_mem (noSlash blank)).append ends ?_
  exact fun last => noSlash blank (List.mem_of_getLast? last)

section

variable {root : String} {name : EntityName} {document : List Char} {list : ImportsList}
  {layout : Layout document list} (hroot : '\'' ∉ root.toList) (title : IsIdentifier name.title)
  (slug : IsIdentifier name.slug)

include hroot title slug

/-- If the line of the last entry is an import line up to there, then its module is an entry. -/
lemma mem_entries_of_trim_eq (entry : LastEntry layout)
    (line : trim (lastLine (layout.before ++ '[' :: entry.text)) = (importLine root name).toList) :
    wordPiece (bytesOf name.module) ∈ list.entries.map Lexeme.piece := by
  obtain ⟨init, split, -, whole⟩ := exists_lastLine (layout.before ++ '[' :: entry.text)
  obtain ⟨front, back, e, -, blank⟩ := exists_trim (lastLine (layout.before ++ '[' :: entry.text))
  rw [line] at e
  have plain : ∀ b ∈ bytes back, IsPlain b := by
    refine isPlain_of_isBlank blank fun mem => whole ?_
    rw [e]
    simp [mem]
  -- The lexemes of the text up to the last entry can be followed by a space.
  have chained : Chained Complete (layout.front.map Lexeme.piece ++ opener ::
      (entry.kept.map Lexeme.piece ++ [entry.last.piece])) 0x20 := by
    have before := layout.chained
    rw [entry.pieces_contents, ← List.cons_append, ← List.append_assoc] at before
    have before := (chained_append.mp before).1
    rw [← List.cons_append, ← List.append_assoc] at before ⊢
    exact chained_change before entry.isCode (.inr (by decide))
  have spelled : spell (layout.front.map Lexeme.piece ++ opener ::
      (entry.kept.map Lexeme.piece ++ [entry.last.piece])) =
      bytes (init ++ front) ++ (bytes (importLine root name).toList ++ bytes back) := by
    rw [spell_append, spell_cons, ← layout.bytes_before, ← entry.bytes_text, ← bytes_append,
      ← bytes_append, List.append_assoc, ← e, ← split, bytes_append, bytes_cons]
    rfl
  obtain ⟨qs, rs, pieces, hrs⟩ := exists_importTail hroot title slug chained (by decide) plain spelled
  have free : opener ∉ importTail root name ++ rs := by
    rw [List.mem_append, not_or]
    refine ⟨by simp [importTail, wordPiece, markPiece], fun mem => ?_⟩
    have byte : (0x5B : UInt8) ∈ spell rs := List.mem_flatMap.mpr ⟨_, mem, List.mem_singleton_self _⟩
    rw [hrs, List.mem_cons] at byte
    obtain e | byte := byte
    · revert e
      decide
    · exact absurd (blank '[' ((mem_bytes_iff (c := '[') (by decide)).mp byte)) (by decide)
  have mem : wordPiece (bytesOf name.module) ∈
      entry.kept.map Lexeme.piece ++ [entry.last.piece] := by
    have word : wordPiece (bytesOf name.module) ∈ importTail root name ++ rs :=
      List.mem_append_left _ List.mem_cons_self
    obtain ⟨as, -, tail⟩ | ⟨cs, -, tail⟩ := List.append_eq_append_iff.mp pieces
    · cases as with
      | nil =>
        rw [List.nil_append] at tail
        exact absurd (tail ▸ List.mem_cons_self) free
      | cons p as =>
        rw [(List.cons.inj tail).2]
        exact List.mem_append_right _ word
    · rw [tail] at free
      exact absurd (List.mem_append_right _ List.mem_cons_self) free
  rw [← entry.filter_text]
  exact List.mem_filter.mpr ⟨mem, rfl⟩

/-- The line of the last entry is no import line of a module that is not in the list. -/
lemma lineCount_lastEntry (entry : LastEntry layout) (ne : name.slug.toList ≠ [])
    (clean : NoComment root.toList) (bracket : ']' ∉ root.toList)
    (none : wordPiece (bytesOf name.module) ∉ list.entries.map Lexeme.piece) :
    lineCount (importLine root name).toList
      (lastLine (layout.before ++ '[' :: entry.text) ++
        firstLine (entry.rest ++ ']' :: layout.after)) = 0 := by
  obtain ⟨-, -, -, wholeFirst⟩ := exists_lastLine (layout.before ++ '[' :: entry.text)
  obtain ⟨-, -, -, wholeLast⟩ := exists_firstLine (entry.rest ++ ']' :: layout.after)
  have whole : '\n' ∉ lastLine (layout.before ++ '[' :: entry.text) ++
      firstLine (entry.rest ++ ']' :: layout.after) := by
    rw [List.mem_append, not_or]
    exact ⟨wholeFirst, wholeLast⟩
  rw [lineCount_eq (importLine_ne_nil root name) whole, if_neg]
  intro eq
  -- The bracket is not in the line, so the line ends within the gap.
  have noBracket : ']' ∉ firstLine (entry.rest ++ ']' :: layout.after) := by
    intro mem
    have inside : ']' ∈ trim (lastLine (layout.before ++ '[' :: entry.text) ++
        firstLine (entry.rest ++ ']' :: layout.after)) :=
      mem_trim (List.mem_append_right _ mem) (by decide)
    rw [eq] at inside
    exact not_mem_importLine title slug (by decide) (by decide) bracket (by simp) inside
  by_cases newline : '\n' ∈ entry.rest
  · obtain ⟨rest, more, split, clear⟩ := List.eq_append_cons_of_mem newline
    have first : firstLine (entry.rest ++ ']' :: layout.after) = rest := by
      rw [split, List.append_assoc, firstLine_append clear, List.cons_append, firstLine_newline,
        List.append_nil]
    rw [first] at eq
    have spelled : spell (entry.gap.map Lexeme.piece) = bytes rest ++ 0x0A :: bytes more := by
      rw [← entry.bytes_rest, split, bytes_append, bytes_newline]
    have noComment : NoComment rest := by
      have line := noComment_importLine title slug ne clean
      rw [← eq] at line
      exact List.IsChain.right_of_append (noComment_of_trim line)
    rw [trim_append_right (isBlank_of_isGap entry.isGap entry.chained_gap spelled noComment)] at eq
    exact none (mem_entries_of_trim_eq hroot title slug entry eq)
  · rw [firstLine_append newline] at noBracket
    exact noBracket (List.mem_append_right _ List.mem_cons_self)

/-- An insertion keeps the import line of a module that is not in the list. -/
lemma hasLine_extended {inside : List Char} (ne : name.slug.toList ≠ [])
    (clean : NoComment root.toList) (bracket : ']' ∉ root.toList)
    (none : wordPiece (bytesOf name.module) ∉ list.entries.map Lexeme.piece)
    (ext : Extended layout name.module.toList inside)
    (line : hasLine document (importLine root name).toList = true) :
    hasLine (layout.before ++ '[' :: (inside ++ ']' :: layout.after))
      (importLine root name).toList = true := by
  have solid := importLine_ne_nil root name
  rw [hasLine_iff] at line ⊢
  cases ext with
  | @fill kept blanks empty split blank last =>
    obtain ⟨others, old, new⟩ := exists_lineCount_fill solid layout.before layout.after kept blanks
      name.module.toList
    rw [← split, ← layout.text] at old
    obtain ⟨-, -, -, wholeFront⟩ := exists_lastLine (layout.before ++ '[' :: kept)
    obtain ⟨-, -, -, wholeBack⟩ := exists_firstLine (']' :: layout.after)
    have outside : ']' ∉ (importLine root name).toList :=
      not_mem_importLine title slug (by decide) (by decide) bracket (by simp)
    -- The bracket is not in the line, so the line is at most in front of the white space.
    have behind {part : List Char} (whole : '\n' ∉ part) : lineCount (importLine root name).toList
        (part ++ firstLine (']' :: layout.after)) = 0 := by
      have mem : ']' ∈ firstLine (']' :: layout.after) := List.mem_cons_self
      refine lineCount_eq_zero solid ?_ (List.mem_append_right _ mem) (by decide) outside
      rw [List.mem_append, not_or]
      exact ⟨whole, wholeBack⟩
    have fewer : lineCount (importLine root name).toList (lastLine (layout.before ++ '[' :: kept) ++
        (blanks ++ firstLine (']' :: layout.after))) ≤
        lineCount (importLine root name).toList (lastLine (layout.before ++ '[' :: kept)) := by
      by_cases newline : '\n' ∈ blanks
      · obtain ⟨indent, -, whole, count⟩ := exists_lineCount_blank solid wholeFront blank newline
          (firstLine (']' :: layout.after))
        rw [count, behind whole]
        exact Nat.le_refl _
      · rw [← List.append_assoc, behind (by simp [wholeFront, newline])]
        exact Nat.zero_le _
    rw [new]
    omega
  | append entry sep =>
    obtain ⟨others, old, new⟩ := exists_lineCount_append solid layout.before layout.after entry.text
      entry.rest
    rw [← entry.inside, ← layout.text,
      lineCount_lastEntry hroot title slug entry ne clean bracket none] at old
    rw [List.append_assoc entry.text, List.append_assoc entry.text, new]
    omega

end

/-- A registration leaves the import line of its entity in the registry. -/
lemma hasLine_imported (root document : String) (name : EntityName) (newline : '\n' ∉ root.toList)
    (title : IsIdentifier name.title) (slug : IsIdentifier name.slug) :
    hasLine (imported root document name) (importLine root name).toList = true := by
  rw [imported]
  split_ifs with line
  · exact line
  · have solid := importLine_ne_nil root name
    have whole : '\n' ∉ (importLine root name).toList :=
      not_mem_importLine title slug (by decide) (by decide) newline (by simp)
    rw [hasLine_iff, lineCount_append solid, lineCount_eq solid whole, trim_importLine, if_pos rfl]
    omega

/-- A registration makes sure of the import line of its entity and of the module in the list, if there
is a list. -/
lemma present_of_register? {root document : String} {name : EntityName} {r : Registration}
    (newline : '\n' ∉ root.toList) (quote : '\'' ∉ root.toList) (bracket : ']' ∉ root.toList)
    (lineMark : ¬ "//".toList <:+: root.toList) (blockMark : ¬ "/*".toList <:+: root.toList)
    (title : IsIdentifier name.title) (slug : IsIdentifier name.slug) (ne : name.source ≠ "")
    (h : register? root document name = some r) :
    hasLine r.document.toList (importLine root name).toList = true ∧
      (ImportsList.find? r.document.toList).isSome = r.listFound ∧
      ∀ list, ImportsList.find? r.document.toList = some list →
        list.hasWord (bytesOf name.module) = true := by
  have clean := noComment_iff.mpr ⟨lineMark, blockMark⟩
  have line := hasLine_imported root document name newline title slug
  have slugNe : name.slug.toList ≠ [] := by
    rw [EntityName.slug, String.toList_ofList, Text.lowerCase, ne_eq, lowerAfter_eq_nil,
      String.toList_eq_nil_iff]
    exact ne
  cases registers_of_register? h with
  | noList none =>
    refine ⟨by simpa using line, by simp [none], fun list find => ?_⟩
    rw [String.toList_ofList, none] at find
    cases find
  | @present list some word =>
    refine ⟨by simpa using line, by simp [some], fun list find => ?_⟩
    rw [String.toList_ofList, some] at find
    cases find
    exact word
  | @added list inside layout find word ext =>
    have absent : wordPiece (bytesOf name.module) ∉ list.entries.map Lexeme.piece := by
      rw [← hasWord_iff, word]
      exact Bool.false_ne_true
    have first := ext.isFirstList (module_ne_nil name) title.module
    obtain ⟨list', find', entries⟩ := first.exists_find?
    refine ⟨?_, by simp [find'], fun list find => ?_⟩
    · rw [String.toList_ofList]
      exact hasLine_extended quote title slug slugNe clean bracket absent ext line
    · rw [String.toList_ofList, find'] at find
      cases find
      rw [hasWord_iff, entries]
      exact mem_extend _ _

/-- Registering an entity is idempotent: a registry that an entity has been registered in does not
change when the entity is registered again. The name must not be empty, for a path without a name
in it has two slashes in a row and would begin a comment. -/
theorem register?_idempotent {root document : String} {name : EntityName} {r : Registration}
    (newline : '\n' ∉ root.toList) (quote : '\'' ∉ root.toList) (bracket : ']' ∉ root.toList)
    (lineMark : ¬ "//".toList <:+: root.toList) (blockMark : ¬ "/*".toList <:+: root.toList)
    (title : IsIdentifier name.title) (slug : IsIdentifier name.slug) (ne : name.source ≠ "")
    (h : register? root document name = some r) :
    register? root r.document name = some ⟨r.document, false, false, r.listFound⟩ := by
  obtain ⟨line, found, word⟩ :=
    present_of_register? newline quote bracket lineMark blockMark title slug ne h
  rw [register?_of_present line word, found]

/-- Registering a second entity twice is registering it once. -/
theorem register?_idempotent_user :
    ∃ r, register? "../modules" "@Module(\x7b imports: [A] \x7d)\n" ⟨"user"⟩ = some r ∧
      r.isChange = true ∧
      register? "../modules" r.document ⟨"user"⟩ = some ⟨r.document, false, false, true⟩ := by
  have h : register? "../modules" "@Module(\x7b imports: [A] \x7d)\n" ⟨"user"⟩ =
      some ⟨"import \x7b UserModule \x7d from '../modules/user/user.module';\n" ++
        "@Module(\x7b imports: [A, UserModule] \x7d)\n", true, true, true⟩ := by
    decide +kernel
  have again := register?_idempotent (by simp) (by simp) (by simp) (by decide +kernel)
    (by decide +kernel) (by decide +kernel) (by decide +kernel) (by decide) h
  exact ⟨_, h, rfl, again⟩

/-- An entity without a name has two slashes in its import line, which begin a comment where the
line stands outside of a literal. Its entry then goes into the line that the registry had. -/
theorem register?_not_idempotent_of_empty :
    ¬ ∀ (root document : String) (name : EntityName) (r : Registration),
      '\n' ∉ root.toList → '\'' ∉ root.toList → ']' ∉ root.toList →
      ¬ "//".toList <:+: root.toList → ¬ "/*".toList <:+: root.toList →
      IsIdentifier name.title → IsIdentifier name.slug →
      register? root document name = some r →
      register? root r.document name = some ⟨r.document, false, false, r.listFound⟩ := by
  intro all
  have first : register? "../modules"
      "imports: ['\nimport \x7b Module \x7d from '../modules//.module';\n]" ⟨""⟩ =
      some ⟨"imports: ['\nimport \x7b Module \x7d from '../modules,\n    Module//.module';\n]",
        false, true, true⟩ := by
    decide +kernel
  have second : register? "../modules"
      "imports: ['\nimport \x7b Module \x7d from '../modules,\n    Module//.module';\n]" ⟨""⟩ =
      some ⟨"import \x7b Module \x7d from '../modules//.module';\n" ++
        "imports: ['\nimport \x7b Module \x7d from '../modules,\n    Module//.module';\n]",
        true, false, true⟩ := by
    decide +kernel
  have same := all _ _ _ _ (by simp) (by simp) (by simp) (by decide +kernel) (by decide +kernel)
    (by decide +kernel) (by decide +kernel) first
  rw [second] at same
  simp at same

end EntityForge.Registry

import EntityForge.Proofs.Registry.ImportLine
import EntityForge.Proofs.Registry.Insertion
import Mathlib

/-!
# The code of an extended list

The text that an insertion makes is read as the old code with the module as one word behind the
entries, and a comma before it where the entries do not end with one.
-/

namespace EntityForge.Registry

open Text

/-- The comma between entries. -/
abbrev comma : Piece := markPiece 0x2C

/-- The entries of a list after a module has been added. -/
def extend (entries : List Piece) (module : List UInt8) : List Piece :=
  if entries = [] ∨ entries.getLast? = some comma then entries ++ [wordPiece module]
  else entries ++ [comma, wordPiece module]

/-- What is added to a list has no brackets. -/
lemma exists_extend_eq (entries : List Piece) (module : List UInt8) :
    ∃ more, extend entries module = entries ++ more ∧ closer ∉ more ∧ opener ∉ more := by
  rw [extend]
  split_ifs
  · exact ⟨_, rfl, by simp [wordPiece, markPiece], by simp [wordPiece, markPiece]⟩
  · exact ⟨_, rfl, by simp [wordPiece, markPiece], by simp [wordPiece, markPiece]⟩

/-- The brackets of an extended list balance if they did before. -/
lemma Closes.extend {entries : List Piece} (h : Closes 0 entries) (module : List UInt8) :
    Closes 0 (extend entries module) := by
  obtain ⟨more, e, hc, ho⟩ := exists_extend_eq entries module
  rw [e]
  exact h.append hc ho

/-- The module stands in the list that it has been added to. -/
lemma mem_extend (entries : List Piece) (module : List UInt8) :
    wordPiece module ∈ extend entries module := by
  rw [extend]
  split_ifs <;> simp

/-- A module that is added makes a list longer. -/
lemma length_lt_extend (entries : List Piece) (module : List UInt8) :
    entries.length < (extend entries module).length := by
  rw [extend]
  split_ifs <;> simp

/-! ### White space -/

/-- The pieces of ASCII white space. -/
private def spaces (s : List Char) : List Piece :=
  s.map fun c => (.space, [c.toUInt8])

/-- The characters that an insertion separates words with. -/
private def IsSpacing (s : List Char) : Prop :=
  ∀ c ∈ s, c = ' ' ∨ c = '\t' ∨ c = '\n'

section

variable {s : List Char} (h : IsSpacing s)

include h

/-- Spaces are pieces before any byte. -/
private lemma chained_spaces (z : UInt8) : Chained Complete (spaces s) z := by
  induction s with
  | nil => exact chained_nil z
  | cons c s ih =>
    obtain ⟨first, others⟩ := List.forall_mem_cons.mp h
    refine ⟨.space ?_, ih others⟩
    obtain rfl | rfl | rfl := first <;> decide

/-- Spaces spell the characters that they are. -/
private lemma spell_spaces : spell (spaces s) = bytes s := by
  induction s with
  | nil => rfl
  | cons c s ih =>
    obtain ⟨first, others⟩ := List.forall_mem_cons.mp h
    have ascii : c.toNat < 0x80 := by obtain rfl | rfl | rfl := first <;> decide
    rw [bytes_cons, utf8EncodeChar_of_ascii ascii, ← ih others]
    rfl

end

/-- There is no code among spaces. -/
private lemma filter_spaces (s : List Char) : (spaces s).filter (·.1.isCode) = [] := by
  refine List.filter_eq_nil_iff.mpr fun p mem => ?_
  obtain ⟨c, -, rfl⟩ := List.mem_map.mp mem
  exact Bool.false_ne_true

/-- A separator is white space. -/
private lemma Separator.isSpacing {inside separator : List Char}
    (h : Separator inside separator) : IsSpacing separator := by
  intro c mem
  cases h with
  | space => exact .inl (List.mem_singleton.mp mem)
  | newline _ indent =>
    obtain rfl | mem := List.mem_cons.mp mem
    · exact .inr (.inr rfl)
    · exact (indent c mem).imp_right .inl

/-- What begins with white space is led by it, and a separator is not empty. -/
private lemma Separator.isSpaceByte_lead {inside separator : List Char} (h : Separator inside separator)
    (ps : List Piece) (z : UInt8) : isSpaceByte (lead (spaces separator ++ ps) z) := by
  cases h with
  | space => exact (by decide : isSpaceByte 0x20)
  | newline => exact (by decide : isSpaceByte 0x0A)

/-! ### The new code -/

/-- Code whose last byte is a comma is a comma. -/
private lemma eq_comma {k : Kind} {bs : List UInt8} {z : UInt8} (complete : Complete k bs z)
    (code : k.isCode) (last : bs.getLast? = some 0x2C) : (k, bs) = comma := by
  cases complete with
  | word _ inside _ => exact absurd (inside _ (List.mem_of_getLast? last)) (by decide)
  | punctuation => exact congrArg (Prod.mk _) (congrArg (· :: []) (Option.some.inj last))
  | @literal quote body _ isQuote _ =>
    rw [getLast?_literal] at last
    rw [Option.some.inj last] at isQuote
    exact absurd isQuote (by decide)
  | lineComment | blockComment | space => cases code

section

variable {document : List Char} {list : ImportsList} {layout : Layout document list}

/-- A text up to the last entry of its list ends with a comma if the entry is one. -/
lemma LastEntry.getLast?_text_iff (entry : LastEntry layout) :
    entry.text.getLast? = some ',' ↔ entry.last.piece = comma := by
  have complete := (chained_append.mp entry.chained_text).2.1
  have ends : bytes entry.text = spell (entry.kept.map Lexeme.piece) ++ entry.last.piece.2 := by
    rw [entry.bytes_text]
    simp
  constructor
  · intro h
    obtain ⟨init, split⟩ := List.getLast?_eq_some_iff.mp h
    have same := congrArg List.getLast? ends
    rw [List.getLast?_append_of_ne_nil _ entry.last_ne_nil, split, bytes_append] at same
    refine eq_comma complete entry.isCode (same.symm.trans ?_)
    exact List.getLast?_append_of_ne_nil _ (List.cons_ne_nil _ _)
  · intro h
    rw [show entry.last.piece.2 = [0x2C] from (Prod.mk.inj h).2] at ends
    obtain ⟨u, v, split, -, hv⟩ := exists_split_char (c := ',') (by decide) ends
    rw [split, bytes_eq_nil hv]
    exact List.getLast?_concat

/-- An empty list that is filled, as pieces. -/
private lemma exists_pieces_fill {module kept blanks : List Char} (ne : bytes module ≠ [])
    (ident : ∀ b ∈ bytes module, isIdentifierByte b) (empty : list.entries = [])
    (split : layout.inside = kept ++ blanks) (blank : ∀ c ∈ blanks, isBlank c) :
    ∃ ps, Chained Complete ps 0x5D ∧
      bytes (kept ++ '\n' :: (entryIndent ++ (module ++ "\n  ".toList))) = spell ps ∧
      ps.filter (·.1.isCode) = [wordPiece (bytes module)] := by
  have slash : 0x2F ∉ bytes blanks := by
    intro mem
    have blank := blank _ ((mem_bytes_iff (c := '/') (by decide)).mp mem)
    exact absurd blank (by decide)
  have whole := layout.bytes_inside
  rw [split, bytes_append] at whole
  obtain ⟨qs, isGap, chained, spelled⟩ :=
    exists_gap_of_append (layout.isGap_contents empty) layout.chained_contents whole.symm slash
  have before : IsSpacing ('\n' :: entryIndent) := by simp [IsSpacing, entryIndent]
  have after : IsSpacing "\n  ".toList := by simp [IsSpacing]
  refine ⟨qs ++ (spaces ('\n' :: entryIndent) ++
    wordPiece (bytes module) :: spaces "\n  ".toList), ?_, ?_, ?_⟩
  · refine chained_append.mpr ⟨chained, chained_append.mpr ⟨?_, ?_, ?_⟩⟩
    · exact chained_spaces before _
    · exact .word ne ident (by decide : isIdentifierByte 0x0A = false)
    · exact chained_spaces after _
  · rw [spell_append, spell_append, spell_cons, spell_spaces before, spell_spaces after, spelled]
    simp [wordPiece, bytes_cons]
  · rw [List.filter_append, List.filter_append, filter_spaces, isGap.filter_eq_nil,
      List.filter_cons_of_pos rfl, filter_spaces]
    rfl

/-- The comma that a list needs behind its last entry, as pieces. -/
private def commas (last : Piece) : List Piece :=
  if last = comma then [] else [comma]

/-- What is put behind a last entry, as pieces. -/
private lemma chained_appended (entry : LastEntry layout) {ps : List Piece}
    (words : Chained Complete ps 0x5D) (first : isSpaceByte (lead ps 0x5D)) :
    Chained Complete ((entry.kept.map Lexeme.piece ++ [entry.last.piece]) ++
      (commas entry.last.piece ++ ps)) 0x5D := by
  rw [commas]
  split_ifs
  · exact chained_append.mpr ⟨chained_change entry.chained_text entry.isCode (.inr first), words⟩
  · refine chained_append.mpr ⟨chained_change entry.chained_text entry.isCode (.inl rfl), ?_, words⟩
    exact .punctuation (by decide) fun e => absurd e (by decide)

/-- The entries of a list that has a last one, with a module added. -/
private lemma extend_entries (entry : LastEntry layout) (module : List UInt8) :
    extend (list.entries.map Lexeme.piece) module =
      list.entries.map Lexeme.piece ++ (commas entry.last.piece ++ [wordPiece module]) := by
  have last : (list.entries.map Lexeme.piece).getLast? = some entry.last.piece := by
    rw [List.getLast?_map, entry.isLast]
    rfl
  have ne : list.entries.map Lexeme.piece ≠ [] := by
    intro none
    rw [none] at last
    cases last
  rw [extend, last, commas]
  by_cases eq : entry.last.piece = comma
  · simp [eq, ne]
  · simp only [eq, ne, if_false, Option.some.injEq, false_or]
    rfl

/-- A list that gets one more entry, as pieces. -/
private lemma exists_pieces_append {module separator : List Char} (entry : LastEntry layout)
    (sep : Separator layout.inside separator) (ne : bytes module ≠ [])
    (ident : ∀ b ∈ bytes module, isIdentifierByte b) :
    ∃ ps, Chained Complete ps 0x5D ∧
      bytes (entry.text ++ (if entry.text.getLast? = some ',' then [] else [',']) ++
        separator ++ module ++ entry.rest) = spell ps ∧
      ps.filter (·.1.isCode) = extend (list.entries.map Lexeme.piece) (bytes module) := by
  refine ⟨(entry.kept.map Lexeme.piece ++ [entry.last.piece]) ++ (commas entry.last.piece ++
    (spaces separator ++ wordPiece (bytes module) :: entry.gap.map Lexeme.piece)), ?_, ?_, ?_⟩
  · refine chained_appended entry ?_ (sep.isSpaceByte_lead _ _)
    refine chained_append.mpr ⟨chained_spaces sep.isSpacing _, .word ne ident ?_,
      entry.chained_gap⟩
    exact isIdentifierByte_lead entry.isGap entry.chained_gap (by decide)
  · have spelled : bytes (if entry.text.getLast? = some ',' then [] else [',']) =
        spell (commas entry.last.piece) := by
      rw [commas, if_congr entry.getLast?_text_iff rfl rfl]
      split_ifs <;> rfl
    rw [bytes_append, bytes_append, bytes_append, bytes_append, entry.bytes_text,
      entry.bytes_rest, spelled, ← spell_spaces sep.isSpacing]
    simp [wordPiece]
  · have code : (commas entry.last.piece).filter (·.1.isCode) = commas entry.last.piece := by
      rw [commas]
      split_ifs <;> rfl
    rw [List.filter_append, entry.filter_text, List.filter_append, List.filter_append,
      filter_spaces, List.filter_cons_of_pos rfl, entry.isGap.filter_eq_nil, code,
      extend_entries entry]
    rfl

/-- What stands between the brackets after an insertion, as pieces. -/
lemma Extended.exists_pieces {module inside : List Char} (h : Extended layout module inside)
    (ne : module ≠ []) (ident : ∀ b ∈ bytes module, isIdentifierByte b) :
    ∃ ps, Chained Complete ps 0x5D ∧ bytes inside = spell ps ∧
      ps.filter (·.1.isCode) = extend (list.entries.map Lexeme.piece) (bytes module) := by
  have ne : bytes module ≠ [] := mt bytes_eq_nil ne
  cases h with
  | fill empty split blank =>
    obtain ⟨ps, chained, spelled, code⟩ := exists_pieces_fill ne ident empty split blank
    refine ⟨ps, chained, spelled, code.trans ?_⟩
    rw [empty, extend]
    rfl
  | append entry sep => exact exists_pieces_append entry sep ne ident

/-- A registry in which a module has been inserted has its first list where it was, with the
module. -/
lemma Extended.isFirstList {module inside : List Char} (h : Extended layout module inside)
    (ne : module ≠ []) (ident : ∀ b ∈ bytes module, isIdentifierByte b) :
    IsFirstList (code (layout.before ++ '[' :: (inside ++ ']' :: layout.after))) layout.preamble
      (extend (list.entries.map Lexeme.piece) (bytes module))
      ((layout.back.map Lexeme.piece).filter (·.1.isCode)) := by
  obtain ⟨ps, chained, spelled, e⟩ := h.exists_pieces ne ident
  rw [← e]
  refine layout.isFirstList_change chained spelled ?_
  rw [e]
  exact layout.first.balanced.extend _

end

end EntityForge.Registry

import EntityForge.Proofs.Registry.Extension
import Mathlib

/-!
# Division at the first list

The text of a registry before, in and after its first imports list. Unlike a layout a division knows
no offsets, so it moves along when a line is put on top, and there is only one of it.
-/

namespace EntityForge.Registry

open Text

/-- A registry divided at the brackets of its first imports list. -/
structure Division (document before inside after : List Char) (entries : List Piece) : Prop where
  text : document = before ++ '[' :: (inside ++ ']' :: after)
  exists_pieces : ∃ front contents back preamble,
    pieces next (bytes document) = front ++ opener :: (contents ++ closer :: back) ∧
    bytes before = spell front ∧
    bytes inside = spell contents ∧
    front.filter (·.1.isCode) = preamble ++ [wordPiece (bytesOf "imports"), markPiece 0x3A] ∧
    contents.filter (·.1.isCode) = entries ∧
    IsFirstList (code document) preamble entries (back.filter (·.1.isCode))

section

variable {document : List Char} {list : ImportsList} (layout : Layout document list)

/-- A layout divides a registry. -/
lemma Layout.division : Division document layout.before layout.inside layout.after
    (list.entries.map Lexeme.piece) := by
  refine ⟨layout.text, _, _, _, layout.preamble, layout.pieces_eq, layout.bytes_before,
    layout.bytes_inside, layout.front_code, ?_, layout.first⟩
  rw [filter_map_piece, layout.entries]

/-- A registry in which a module has been inserted is divided as before, with the module among the
entries. -/
lemma Extended.division {layout : Layout document list} {module inside : List Char}
    (h : Extended layout module inside) (ne : module ≠ [])
    (ident : ∀ b ∈ bytes module, isIdentifierByte b) :
    Division (layout.before ++ '[' :: (inside ++ ']' :: layout.after)) layout.before inside
      layout.after (extend (list.entries.map Lexeme.piece) (bytes module)) := by
  obtain ⟨ps, chained, spelled, e⟩ := h.exists_pieces ne ident
  exact ⟨rfl, _, ps, _, layout.preamble, layout.pieces_change chained spelled,
    layout.bytes_before, spelled, layout.front_code, e, h.isFirstList ne ident⟩

end

/-- A list is divided in one way at something that passes a test, if it is known what passes it
before. -/
private lemma append_inj_of_filter {α : Type} {p : α → Bool} {s t u v : List α} {a b : α}
    (h : s ++ a :: t = u ++ b :: v) (ha : p a) (hb : p b) (same : s.filter p = u.filter p) :
    s = u ∧ a :: t = b :: v := by
  obtain ⟨as, rfl, tail⟩ | ⟨cs, rfl, tail⟩ := List.append_eq_append_iff.mp h
  · cases as with
    | nil => exact ⟨(List.append_nil s).symm, tail⟩
    | cons c as =>
      obtain ⟨rfl, -⟩ := List.cons.inj tail
      have size := congrArg List.length same
      rw [List.filter_append, List.filter_cons_of_pos ha, List.length_append,
        List.length_cons] at size
      omega
  · cases cs with
    | nil => exact ⟨List.append_nil u, tail.symm⟩
    | cons c cs =>
      obtain ⟨rfl, -⟩ := List.cons.inj tail
      have size := congrArg List.length same
      rw [List.filter_append, List.filter_cons_of_pos hb, List.length_append,
        List.length_cons] at size
      omega

namespace Division

variable {document before inside after : List Char} {entries : List Piece}

/-- A registry is divided in one way. -/
lemma unique {before' inside' after' : List Char} {entries' : List Piece}
    (h : Division document before inside after entries)
    (h' : Division document before' inside' after' entries') :
    before = before' ∧ inside = inside' ∧ after = after' ∧ entries = entries' := by
  obtain ⟨text, front, contents, back, preamble, read, hbefore, hinside, hfront, hentries, first⟩ := h
  obtain ⟨text', front', contents', back', preamble', read', hbefore', hinside', hfront', hentries',
    first'⟩ := h'
  obtain ⟨rfl, rfl, -⟩ := first.unique first'
  obtain ⟨rfl, tail⟩ := append_inj_of_filter (read.symm.trans read') rfl rfl
    (hfront.trans hfront'.symm)
  obtain ⟨rfl, -⟩ := append_inj_of_filter (List.cons.inj tail).2 rfl rfl
    (hentries.trans hentries'.symm)
  obtain ⟨rfl, opened⟩ := append_inj_of_bytes (text.symm.trans text')
    (by rw [hbefore, hbefore'])
  obtain ⟨rfl, closed⟩ := append_inj_of_bytes (List.cons.inj opened).2 (by rw [hinside, hinside'])
  exact ⟨rfl, rfl, (List.cons.inj closed).2, rfl⟩

/-- The list of a divided registry is found. -/
lemma exists_find? (h : Division document before inside after entries) :
    ∃ list, ImportsList.find? document = some list ∧ list.entries.map Lexeme.piece = entries := by
  obtain ⟨_, _, _, _, _, _, _, _, _, _, first⟩ := h
  exact first.exists_find?

/-- A registry with an import line on top is divided where it was before. -/
lemma importLine_append {root : String} {name : EntityName} (hroot : '\'' ∉ root.toList)
    (title : IsIdentifier name.title) (slug : IsIdentifier name.slug)
    (h : Division document before inside after entries) :
    Division ((importLine root name).toList ++ '\n' :: document)
      ((importLine root name).toList ++ '\n' :: before) inside after entries := by
  obtain ⟨text, front, contents, back, preamble, read, hbefore, hinside, hfront, hentries, first⟩ := h
  refine ⟨by rw [text]; simp, importPieces root name ++ (.space, [0x0A]) :: front, contents, back,
    importCode root name ++ preamble, ?_, ?_, hinside, ?_, hentries, ?_⟩
  · rw [bytes_append, bytes_newline, pieces_importLine_append hroot title slug, pieces_newline, read]
    simp
  · rw [bytes_append, bytes_newline, ← spell_importPieces, hbefore]
    simp
  · rw [List.filter_append, filter_importPieces, List.filter_cons_of_neg Bool.false_ne_true, hfront,
      List.append_assoc]
  · rw [code_importLine_append hroot title slug]
    exact (IsFirstList.append_left_iff (imports_not_mem_importCode root name)).mpr
      ⟨preamble, rfl, first⟩

end Division

end EntityForge.Registry

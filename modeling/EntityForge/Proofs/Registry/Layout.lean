import EntityForge.Proofs.Registry.Gap
import EntityForge.Proofs.Registry.ImportsList
import Mathlib

/-!
# The layout of a registry

A registry with an imports list is divided at the brackets of the list, in characters and in
lexemes at once. A list with entries is divided again behind the last of them.
-/

namespace EntityForge.Registry

open Text

/-- A registry divided at the brackets of its imports list. -/
structure Layout (document : List Char) (list : ImportsList) where
  before : List Char
  inside : List Char
  after : List Char
  front : List Token
  contents : List Token
  back : List Token
  text : document = before ++ '[' :: (inside ++ ']' :: after)
  read : lexemes next 0 (bytes document) = front ++ list.opening :: (contents ++ list.closing :: back)
  bytes_before : bytes before = spell (front.map Lexeme.piece)
  bytes_inside : bytes inside = spell (contents.map Lexeme.piece)
  bytes_after : bytes after = spell (back.map Lexeme.piece)
  opening : list.opening.piece = opener
  closing : list.closing.piece = closer
  entries : contents.filter (·.kind.isCode) = list.entries
  preamble : List Piece
  front_code : (front.map Lexeme.piece).filter (·.1.isCode) =
    preamble ++ [wordPiece (bytesOf "imports"), markPiece 0x3A]
  first : IsFirstList (code document) preamble (list.entries.map Lexeme.piece)
    ((back.map Lexeme.piece).filter (·.1.isCode))

/-- Dropping what is not code can be done before or after forgetting the places. -/
lemma filter_map_piece (ls : List Token) : (ls.map Lexeme.piece).filter (·.1.isCode) =
    (ls.filter (·.kind.isCode)).map Lexeme.piece := by
  rw [List.filter_map]
  rfl

/-- A registry with an imports list is divided at its brackets. -/
lemma exists_layout {document : List Char} {list : ImportsList}
    (h : ImportsList.find? document = some list) : Nonempty (Layout document list) := by
  obtain ⟨front, a, b, after, whole, first⟩ := find?_eq_some_iff.mp h
  obtain ⟨opening, closing⟩ := brackets_of_find? h
  -- The lexemes are divided like the tokens, which are some of them.
  have e : tokens document = (front ++ [a, b]) ++
      list.opening :: (list.entries ++ list.closing :: after) := by
    rw [whole, List.append_assoc]
    rfl
  obtain ⟨l₁, l₂, split, e₁, e₂⟩ := List.filter_eq_append_iff.mp e
  obtain ⟨l₃, l₄, rfl, none₃, -, e₄⟩ := List.filter_eq_cons_iff.mp e₂
  obtain ⟨l₅, l₆, rfl, e₅, e₆⟩ := List.filter_eq_append_iff.mp e₄
  obtain ⟨l₇, l₈, rfl, none, -, e₈⟩ := List.filter_eq_cons_iff.mp e₆
  have read : lexemes next 0 (bytes document) =
      (l₁ ++ l₃) ++ list.opening :: ((l₅ ++ l₇) ++ list.closing :: l₈) := by
    rw [split]
    simp
  have text : bytes document = spell ((l₁ ++ l₃).map Lexeme.piece) ++
      0x5B :: (spell ((l₅ ++ l₇).map Lexeme.piece) ++ 0x5D :: spell (l₈.map Lexeme.piece)) := by
    rw [← @spell_pieces _ next (bytes document), pieces, read]
    simp [opening, closing, markPiece]
  obtain ⟨before, rest, rfl, hbefore, hrest⟩ := exists_split_char (c := '[') (by decide) text
  obtain ⟨inside, after, rfl, hinside, hafter⟩ := exists_split_char (c := ']') (by decide) hrest
  have header : [a, b].map Lexeme.piece = [wordPiece (bytesOf "imports"), markPiece 0x3A] := by
    have split := first.split
    rw [code, whole, List.map_append, List.append_assoc, List.append_assoc] at split
    obtain ⟨ha, rest⟩ := List.cons.inj (List.append_cancel_left split)
    exact congrArg₂ _ ha (congrArg (· :: []) (List.cons.inj rest).1)
  refine ⟨⟨before, inside, after, _, _, _, rfl, read, hbefore, hinside, hafter, opening, closing,
    ?_, front.map Lexeme.piece, ?_, ?_⟩⟩
  · rw [List.filter_append, e₅, List.filter_eq_nil_iff.mpr none, List.append_nil]
  · rw [filter_map_piece, List.filter_append, e₁, List.filter_eq_nil_iff.mpr none₃,
      List.append_nil, List.map_append, header]
  · rw [filter_map_piece, e₈]
    exact first

namespace Layout

variable {document : List Char} {list : ImportsList} (layout : Layout document list)

/-- The brackets of a list are among the lexemes of the text. -/
lemma mem_lexemes (layout : Layout document list) :
    list.opening ∈ lexemes next 0 (bytes document) ∧
      list.closing ∈ lexemes next 0 (bytes document) := by
  rw [layout.read]
  simp

/-- The pieces of a registry, divided at the brackets. -/
lemma pieces_eq : pieces next (bytes document) =
    layout.front.map Lexeme.piece ++
      opener :: (layout.contents.map Lexeme.piece ++ closer :: layout.back.map Lexeme.piece) := by
  rw [pieces, layout.read, List.map_append, List.map_cons, List.map_append, List.map_cons,
    layout.opening, layout.closing]

/-- The list opens after what stands before it. -/
lemma start_opening : list.opening.start = (bytes layout.before).length := by
  rw [start_eq layout.read, layout.bytes_before, Nat.zero_add]

/-- The opening bracket is one byte behind what stands before it. -/
lemma stop_opening : list.opening.stop = (bytes layout.before).length + 1 := by
  rw [Lexeme.stop, layout.start_opening, (Prod.mk.inj layout.opening).2]
  rfl

/-- The list closes after what it holds. -/
lemma start_closing : list.closing.start =
    (bytes layout.before).length + 1 + (bytes layout.inside).length := by
  have split : lexemes next 0 (bytes document) =
      (layout.front ++ list.opening :: layout.contents) ++ list.closing :: layout.back :=
    layout.read.trans (by simp)
  rw [start_eq split, layout.bytes_before, layout.bytes_inside, List.map_append, List.map_cons,
    layout.opening, spell_append, spell_cons]
  simp [markPiece]
  omega

/-- The closing bracket is one byte behind what stands inside. -/
lemma stop_closing : list.closing.stop =
    (bytes layout.before).length + 1 + (bytes layout.inside).length + 1 := by
  rw [Lexeme.stop, layout.start_closing, (Prod.mk.inj layout.closing).2]
  rfl

/-- What stands in an empty list is a gap. -/
lemma isGap_contents (empty : list.entries = []) :
    IsGap (layout.contents.map Lexeme.piece) := by
  have none := layout.entries.trans empty
  exact List.forall_mem_map.mpr fun l mem =>
    Bool.not_eq_true _ ▸ List.filter_eq_nil_iff.mp none l mem

/-! ### Reading another text between the brackets -/

/-- The lexemes of a registry are complete up to the bracket that closes the list. -/
lemma chained : Chained Complete
    (layout.front.map Lexeme.piece ++ opener :: layout.contents.map Lexeme.piece) 0x5D := by
  have split := layout.pieces_eq
  rw [← List.cons_append, ← List.append_assoc] at split
  exact scans.chained_of_pieces split rfl

/-- The lexemes of a list are complete up to the bracket that closes it. -/
lemma chained_contents : Chained Complete (layout.contents.map Lexeme.piece) 0x5D :=
  (chained_append.mp layout.chained).2.2

/-- The text after a list is read as it was, behind the bracket that closes the list. -/
lemma pieces_closing : pieces next (0x5D :: bytes layout.after) =
    closer :: layout.back.map Lexeme.piece := by
  have split := layout.pieces_eq
  rw [← List.cons_append, ← List.append_assoc] at split
  have back := pieces_spell_of_append split
  rw [spell_cons, ← layout.bytes_after] at back
  exact back

/-- A bracket is complete, whatever follows it. -/
lemma complete_opener (z : UInt8) : Complete opener.1 opener.2 z :=
  .punctuation (by decide) fun e => absurd e (by decide)

/-- A registry with other pieces between the brackets is read as these, between what stood there
before. -/
lemma pieces_change {inside : List Char} {ps : List Piece} (h : Chained Complete ps 0x5D)
    (spelled : bytes inside = spell ps) :
    pieces next (bytes (layout.before ++ '[' :: (inside ++ ']' :: layout.after))) =
      layout.front.map Lexeme.piece ++
        opener :: (ps ++ closer :: layout.back.map Lexeme.piece) := by
  have whole : Chained Complete (layout.front.map Lexeme.piece ++ opener :: ps) 0x5D := by
    refine chained_append.mpr ⟨(chained_append.mp layout.chained).1, complete_opener _, h⟩
  have text : bytes (layout.before ++ '[' :: (inside ++ ']' :: layout.after)) =
      spell (layout.front.map Lexeme.piece ++ opener :: ps) ++ 0x5D :: bytes layout.after := by
    rw [bytes_append, bytes_cons, bytes_append, bytes_cons, layout.bytes_before, spelled,
      spell_append, spell_cons]
    simp [utf8EncodeChar_of_ascii, markPiece]
    decide
  rw [text, scans.pieces_append whole, layout.pieces_closing]
  simp

/-- A registry with other pieces between the brackets, whose own brackets balance, has their code as
its first list. -/
lemma isFirstList_change {inside : List Char} {ps : List Piece} (h : Chained Complete ps 0x5D)
    (spelled : bytes inside = spell ps) (balanced : Closes 0 (ps.filter (·.1.isCode))) :
    IsFirstList (code (layout.before ++ '[' :: (inside ++ ']' :: layout.after)))
      layout.preamble (ps.filter (·.1.isCode))
      ((layout.back.map Lexeme.piece).filter (·.1.isCode)) := by
  refine ⟨?_, layout.first.first, balanced⟩
  rw [code_eq_filter, layout.pieces_change h spelled, List.filter_append, layout.front_code,
    List.filter_cons_of_pos rfl, List.filter_append, List.filter_cons_of_pos rfl]
  simp [header]

end Layout

/-! ### The last entry -/

/-- A list divided behind its last entry. -/
structure LastEntry {document : List Char} {list : ImportsList}
    (layout : Layout document list) where
  last : Token
  text : List Char
  rest : List Char
  kept : List Token
  gap : List Token
  isLast : list.entries.getLast? = some last
  inside : layout.inside = text ++ rest
  contents : layout.contents = kept ++ last :: gap
  bytes_text : bytes text = spell (kept.map Lexeme.piece ++ [last.piece])
  bytes_rest : bytes rest = spell (gap.map Lexeme.piece)
  isGap : IsGap (gap.map Lexeme.piece)
  stop : last.stop = (bytes (layout.before ++ '[' :: text)).length

section

variable {document : List Char} {list : ImportsList} {layout : Layout document list}

/-- A last entry and the gap behind it. -/
private lemma exists_gap {last : Token} (h : list.entries.getLast? = some last) :
    ∃ kept gap, layout.contents = kept ++ last :: gap ∧ IsGap (gap.map Lexeme.piece) := by
  obtain ⟨es, e⟩ := List.getLast?_eq_some_iff.mp h
  have entries := layout.entries
  rw [e] at entries
  obtain ⟨l₁, l₂, split, -, e₂⟩ := List.filter_eq_append_iff.mp entries
  obtain ⟨l₃, gap, rfl, -, -, none⟩ := List.filter_eq_cons_iff.mp e₂
  refine ⟨l₁ ++ l₃, gap, by rw [split, List.append_assoc], ?_⟩
  exact List.forall_mem_map.mpr fun l mem =>
    Bool.not_eq_true _ ▸ List.filter_eq_nil_iff.mp none l mem

/-- A list with entries can be divided behind the last one: what follows it begins with an ASCII
character. -/
lemma exists_lastEntry {last : Token} (h : list.entries.getLast? = some last) :
    ∃ entry : LastEntry layout, entry.last = last := by
  obtain ⟨kept, gap, contents, isGap⟩ := @exists_gap _ _ layout _ h
  have chained := layout.chained_contents
  rw [contents, List.append_cons, List.map_append] at chained
  have low := lead_lt isGap (chained_append.mp chained).2 (by decide)
  have pieces : layout.contents.map Lexeme.piece =
      (kept.map Lexeme.piece ++ [last.piece]) ++ gap.map Lexeme.piece := by
    rw [contents]
    simp
  -- The bracket is added to have a character at the cut even if nothing follows the code.
  obtain ⟨more, first⟩ := exists_spell_eq (gap.map Lexeme.piece) 0x5D []
  have whole : bytes (layout.inside ++ [']']) = spell (kept.map Lexeme.piece ++ [last.piece]) ++
      lead (gap.map Lexeme.piece) 0x5D :: more := by
    rw [← first, bytes_append, layout.bytes_inside, pieces, spell_append, List.append_assoc]
    rfl
  obtain ⟨text, c, v, e, htext, hc, hv⟩ := exists_split low whole
  obtain ⟨rest, hrest⟩ : ∃ rest, c :: v = rest ++ [']'] := by
    have bracket : (c :: v).getLast? = some ']' := by
      rw [← List.getLast?_append_of_ne_nil text (List.cons_ne_nil c v), ← e,
        List.getLast?_concat]
    exact List.getLast?_eq_some_iff.mp bracket
  rw [hrest, ← List.append_assoc] at e
  have inside := List.append_cancel_right e
  refine ⟨⟨last, text, rest, kept, gap, h, inside, contents, htext, ?_, isGap, ?_⟩, rfl⟩
  · have both := layout.bytes_inside
    rw [inside, pieces, spell_append, bytes_append, htext] at both
    exact List.append_cancel_left both
  · have split : lexemes next 0 (bytes document) =
        (layout.front ++ list.opening :: kept) ++ last :: (gap ++ list.closing :: layout.back) :=
      layout.read.trans (by rw [contents]; simp)
    rw [Lexeme.stop, start_eq split, bytes_append, bytes_cons, htext, List.map_append, List.map_cons,
      layout.opening, layout.bytes_before]
    simp [utf8EncodeChar_of_ascii, markPiece, Lexeme.piece]
    omega

namespace LastEntry

variable (entry : LastEntry layout)

/-- The registry up to the last entry, and the rest. -/
lemma split : document =
    (layout.before ++ '[' :: entry.text) ++ (entry.rest ++ ']' :: layout.after) :=
  layout.text.trans (by rw [entry.inside]; simp)

/-- The last entry is among the lexemes of the text. -/
lemma mem_lexemes : entry.last ∈ lexemes next 0 (bytes document) := by
  rw [layout.read, entry.contents]
  simp

/-- A last entry is code. -/
lemma isCode : entry.last.piece.1.isCode := by
  have mem := List.mem_of_getLast? entry.isLast
  rw [← layout.entries] at mem
  exact (List.mem_filter.mp mem).2

/-- The last entry stands between what is kept of the list and the gap before its bracket. -/
lemma pieces_contents : layout.contents.map Lexeme.piece =
    (entry.kept.map Lexeme.piece ++ [entry.last.piece]) ++ entry.gap.map Lexeme.piece := by
  rw [entry.contents]
  simp

/-- The lexemes up to a last entry are complete before what follows it. -/
lemma chained_text : Chained Complete (entry.kept.map Lexeme.piece ++ [entry.last.piece])
    (lead (entry.gap.map Lexeme.piece) 0x5D) := by
  have whole := layout.chained_contents
  rw [entry.pieces_contents] at whole
  exact (chained_append.mp whole).1

/-- What follows a last entry is complete up to the closing bracket. -/
lemma chained_gap : Chained Complete (entry.gap.map Lexeme.piece) 0x5D := by
  have whole := layout.chained_contents
  rw [entry.pieces_contents] at whole
  exact (chained_append.mp whole).2

/-- A last entry is not empty. -/
lemma last_ne_nil : entry.last.piece.2 ≠ [] := by
  intro none
  have complete := (chained_append.mp entry.chained_text).2.1
  rw [none] at complete
  exact scans.ne_nil _ _ complete

/-- The text of the entries is not empty. -/
lemma text_ne_nil : entry.text ≠ [] := by
  intro none
  have spelled := entry.bytes_text
  rw [none, spell_append, bytes_nil] at spelled
  exact entry.last_ne_nil (by simpa using (List.append_eq_nil_iff.mp spelled.symm).2)

/-- The code up to a last entry is all of the list. -/
lemma filter_text : (entry.kept.map Lexeme.piece ++ [entry.last.piece]).filter (·.1.isCode) =
    list.entries.map Lexeme.piece := by
  have whole := congrArg (List.map Lexeme.piece) layout.entries
  rw [← filter_map_piece, entry.pieces_contents, List.filter_append, entry.isGap.filter_eq_nil,
    List.append_nil] at whole
  exact whole

end LastEntry

end

end EntityForge.Registry

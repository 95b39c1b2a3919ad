import EntityForge.Proofs.Registry.Registration
import EntityForge.Proofs.Text.Place
import Mathlib

/-!
# Where a registry is cut

The scanner reads bytes, and the list and the places of an insertion are numbers of bytes. All
lexemes begin and end between two characters, whatever the registry holds, so every cut at one of
them can be made. Only the indentation of the last entry is looked up one byte before its end, and
that is inside a character if the entry ends with a word whose last character is not ASCII.
-/

namespace EntityForge.Registry

open Text

/-! ### Boundaries of lexemes -/

/-- Outside words and line comments, the last byte of a piece is below `0x80`. -/
lemma Complete.low_last {k : Kind} {bs : List UInt8} {z : UInt8} (complete : Complete k bs z) :
    k = .word ∨ k = .lineComment ∨ ∃ init b, bs = init ++ [b] ∧ b < 0x80 := by
  cases complete with
  | word => exact .inl rfl
  | @punctuation b _ mark _ =>
    exact .inr (.inr ⟨[], b, rfl, lt_of_not_isIdentifierByte (isMarkByte_iff.mp mark).2.2⟩)
  | @literal quote body _ isQuote _ =>
    refine .inr (.inr ⟨quote :: body, quote, rfl, ?_⟩)
    obtain rfl | rfl | rfl := isQuote_iff.mp isQuote <;> decide
  | lineComment => exact .inr (.inl rfl)
  | @blockComment body _ _ =>
    exact .inr (.inr ⟨0x2F :: 0x2A :: (body ++ [0x2A]), 0x2F, by simp, by decide⟩)
  | @space b _ space =>
    exact .inr (.inr ⟨[], b, rfl, lt_of_not_isIdentifierByte (of_isSpaceByte space).2.1⟩)

/-- A block comment begins with a slash and a star. -/
lemma bytes_blockComment {s : List UInt8} {bs : List UInt8}
    (mem : (Kind.blockComment, bs) ∈ pieces next s) : ∃ more, bs = 0x2F :: 0x2A :: more := by
  obtain ⟨b, rest, e⟩ := exists_next_of_mem_pieces mem
  obtain ⟨kind, rfl⟩ := Prod.mk.inj e
  rw [next] at kind ⊢
  split_ifs at kind with line block
  obtain ⟨rfl, head⟩ := block
  obtain ⟨more, rfl⟩ := List.head?_eq_some_iff.mp head
  rw [if_neg line, if_pos ⟨rfl, rfl⟩, Nat.add_comm]
  exact ⟨_, rfl⟩

/-- The lexemes of a registry begin and end at boundaries, and there is one behind the marks that
begin a block comment. -/
lemma isBoundary_lexeme {document : List Char} {l : Token}
    (mem : l ∈ lexemes next 0 (bytes document)) :
    IsBoundary document l.start ∧ IsBoundary document l.stop ∧
      (l.kind = .blockComment → IsBoundary document (l.start + 2)) := by
  obtain ⟨starts, stops⟩ :=
    scans.isBoundary_lexeme Complete.exists_concat (fun _ => isIdentifierByte_of_le) mem
  refine ⟨starts, stops, fun kind => ?_⟩
  obtain ⟨before, after, read, whole, start⟩ := exists_pieces mem
  have comment : (Kind.blockComment, l.bytes) ∈ pieces next (bytes document) := by
    rw [read, ← kind]
    exact List.mem_append_right _ List.mem_cons_self
  obtain ⟨more, marks⟩ := bytes_blockComment comment
  have text : bytes document = (spell before ++ [0x2F]) ++ 0x2A :: (more ++ spell after) := by
    rw [whole, marks]
    simp
  have behind := isBoundary_behind text (by decide)
  rw [start]
  simpa using behind

/-! ### The last entry -/

section

variable {document : List Char} {list : ImportsList} {layout : Layout document list}

namespace LastEntry

variable (entry : LastEntry layout)

/-- The text of the last entry ends as the text up to there does. -/
lemma exists_slice : ∃ text, Span.slice? ⟨entry.last.start, entry.last.stop⟩ document = some text ∧
    text.getLast? = entry.text.getLast? := by
  have start := (isBoundary_lexeme entry.mem_lexemes).1
  have longer : entry.last.start < entry.last.stop :=
    Nat.lt_add_of_pos_right (List.length_pos_iff.mpr entry.last_ne_nil)
  obtain ⟨before, text, whole, size⟩ := start.exists_split entry.split (entry.stop ▸ longer.le)
  have stop : entry.last.stop = entry.last.start + (bytes text).length := by
    rw [entry.stop, whole, size, bytes_append, List.length_append]
  have ne : text ≠ [] := by
    rintro rfl
    rw [stop] at longer
    exact Nat.lt_irrefl _ longer
  have document_eq := entry.split
  rw [whole, List.append_assoc] at document_eq
  refine ⟨text, slice?_eq_some document_eq size stop, ?_⟩
  rw [← List.getLast?_append_of_ne_nil before ne, ← whole, List.append_cons,
    List.getLast?_append_of_ne_nil _ entry.text_ne_nil]

/-- There is a boundary one byte before the end of the last entry if its last character is ASCII. -/
lemma isBoundary_pred {c : Char} (last : entry.text.getLast? = some c) :
    IsBoundary document (entry.last.stop - 1) ↔ c.toNat < 0x80 := by
  obtain ⟨init, ends⟩ := List.getLast?_eq_some_iff.mp last
  have text : layout.before ++ '[' :: entry.text = (layout.before ++ '[' :: init) ++ [c] := by
    rw [ends]
    simp
  have whole := entry.split
  rw [text] at whole
  rw [entry.stop, text]
  exact isBoundary_pred_iff whole

/-- The text of the entries ends with the last byte of the last entry. -/
lemma getLast?_bytes : (bytes entry.text).getLast? = entry.last.bytes.getLast? := by
  rw [entry.bytes_text, spell_append, spell_cons, spell_nil, List.append_nil,
    List.getLast?_append_of_ne_nil _ entry.last_ne_nil]
  rfl

/-- An entry whose last character is not ASCII ends with a word. -/
lemma kind_eq_word {c : Char} (last : entry.text.getLast? = some c) (high : 0x80 ≤ c.toNat) :
    entry.last.kind = .word := by
  have complete : Complete entry.last.kind entry.last.bytes _ :=
    (chained_append.mp entry.chained_text).2.1
  obtain word | comment | ⟨init, b, ends, low⟩ := complete.low_last
  · exact word
  · have code : entry.last.kind.isCode := entry.isCode
    rw [comment] at code
    cases code
  · -- The entry would end with a byte below `0x80`, but that is the last one of the character.
    obtain ⟨init, text⟩ := List.getLast?_eq_some_iff.mp last
    obtain ⟨d, ds, encoded⟩ := exists_utf8EncodeChar c
    have both := entry.getLast?_bytes
    rw [ends, List.getLast?_concat, text, bytes_append, bytes_cons, bytes_nil, List.append_nil,
      List.getLast?_append_of_ne_nil _ (encoded ▸ List.cons_ne_nil d ds)] at both
    have large := le_of_mem_utf8EncodeChar high (List.mem_of_getLast? both)
    exact absurd low (UInt8.not_lt.mpr large)

/-- One byte before the end of the last entry is inside a character if the entry ends with a word
whose last character is not ASCII. -/
lemma not_isBoundary_pred_iff : ¬ IsBoundary document (entry.last.stop - 1) ↔
    entry.last.kind = .word ∧ ∃ text c,
      Span.slice? ⟨entry.last.start, entry.last.stop⟩ document = some text ∧
      text.getLast? = some c ∧ 0x80 ≤ c.toNat := by
  obtain ⟨text, slice, same⟩ := entry.exists_slice
  rw [slice]
  constructor
  · intro inside
    have last := List.getLast?_eq_some_getLast entry.text_ne_nil
    rw [entry.isBoundary_pred last, Nat.not_lt] at inside
    exact ⟨entry.kind_eq_word last inside, text, _, rfl, same.trans last, inside⟩
  · rintro ⟨-, _, c, ⟨⟩, last, high⟩
    rw [entry.isBoundary_pred (same.symm.trans last)]
    exact Nat.not_lt.mpr high

end LastEntry

end

/-! ### Indentations -/

/-- Where the line of a byte begins. -/
def lineStart (document : List Char) (n : Nat) : Nat :=
  (((bytes document).take n).rdropWhile (· != 0x0A)).length

/-- Where the spaces and tabs end that stand at a byte. -/
def blankStop (document : List Char) (n : Nat) : Nat :=
  n + (((bytes document).drop n).takeWhile fun b => b == 0x20 || b == 0x09).length

/-- The line of a place begins behind the last line feed before it. -/
lemma lineStart_eq (u v : List Char) :
    lineStart (u ++ v) (bytes u).length = (bytes (u.rdropWhile (· != '\n'))).length := by
  rw [lineStart, bytes_append, List.take_left, rdropWhile_bytes (q := (· != '\n'))]
  · intro c ascii
    exact congrArg (!·) (toUInt8_beq (d := '\n') ascii (by decide))
  · intro b high
    refine bne_iff_ne.mpr ?_
    rintro rfl
    exact absurd high (by decide)
  · intro c high
    refine bne_iff_ne.mpr ?_
    rintro rfl
    exact absurd high (by decide)

/-- The indent from a place on reaches over spaces and tabs. -/
lemma blankStop_eq (u v : List Char) :
    blankStop (u ++ v) (bytes u).length =
      (bytes (u ++ v.takeWhile fun c => c = ' ' || c = '\t')).length := by
  rw [blankStop, bytes_append, List.drop_left, bytes_append, List.length_append,
    takeWhile_bytes (q := fun c => c = ' ' || c = '\t')]
  · intro c ascii
    exact congrArg₂ (· || ·) (toUInt8_beq (d := ' ') ascii (by decide))
      (toUInt8_beq (d := '\t') ascii (by decide))
  · intro b high
    rw [Bool.or_eq_false_iff, beq_eq_false_iff_ne, beq_eq_false_iff_ne]
    constructor <;> rintro rfl <;> exact absurd high (by decide)
  · intro c high
    rw [Bool.or_eq_false_iff, decide_eq_false_iff_not, decide_eq_false_iff_not]
    constructor <;> rintro rfl <;> exact absurd high (by decide)

/-- The indentation of the line of a boundary stands between two boundaries. -/
lemma exists_indent {document : List Char} {n : Nat} (h : IsBoundary document n) :
    ∃ front indent rest, document = front ++ (indent ++ rest) ∧
      indentAt? document n = some indent ∧ lineStart document n = (bytes front).length ∧
      blankStop document (lineStart document n) = (bytes (front ++ indent)).length := by
  obtain ⟨u, v, rfl, rfl⟩ := h
  have line : u.rdropWhile (· != '\n') ++ u.rtakeWhile (· != '\n') = u :=
    List.rdropWhile_append_rtakeWhile
  have whole : u ++ v = u.rdropWhile (· != '\n') ++ (u.rtakeWhile (· != '\n') ++ v) := by
    rw [← List.append_assoc, line]
  refine ⟨_, (u.rtakeWhile (· != '\n') ++ v).takeWhile fun c => c = ' ' || c = '\t',
    (u.rtakeWhile (· != '\n') ++ v).dropWhile fun c => c = ' ' || c = '\t', ?_, ?_,
    lineStart_eq u v, ?_⟩
  · rw [whole, List.takeWhile_append_dropWhile]
  · rw [indentAt?, cut?_append]
    rfl
  · rw [lineStart_eq, whole, blankStop_eq]

/-- There is an indentation at the boundaries. -/
lemma indentAt?_eq_none {document : List Char} {n : Nat} :
    indentAt? document n = none ↔ ¬ IsBoundary document n := by
  rw [← isSome_cut?_iff, indentAt?]
  cases cut? document n <;> simp

/-! ### Registrations without a result -/

/-- The numbers of bytes at which a registry is cut to put a module into its list. The indentation
is looked up only if there is a line feed between the brackets. -/
def ImportsList.cuts (list : ImportsList) (document : List Char) : List Nat :=
  match list.entries.getLast? with
  | none => [list.opening.start, list.opening.stop, list.closing.start, list.closing.stop]
  | some last =>
    [list.opening.start, list.closing.start, last.stop] ++
      if '\n' ∈ Span.slice ⟨list.opening.stop, list.closing.start⟩ document then
        [last.stop - 1, lineStart document (last.stop - 1),
          blankStop document (lineStart document (last.stop - 1))]
      else []

namespace Layout

variable {document : List Char} {list : ImportsList} (layout : Layout document list)

/-- A module cannot be put into a list only if it is to be indented like an entry before whose last
byte there is no boundary. -/
lemma insert?_eq_none (module : List Char) :
    list.insert? document module = none ↔
      ∃ last, list.entries.getLast? = some last ∧ '\n' ∈ layout.inside ∧
        ¬ IsBoundary document (last.stop - 1) := by
  rw [ImportsList.insert?]
  cases h : list.entries.getLast? with
  | none => simp [layout.fill?_eq]
  | some last =>
    obtain ⟨entry, rfl⟩ := @exists_lastEntry _ _ layout _ h
    dsimp only
    rw [layout.append?_eq]
    by_cases newline : '\n' ∈ layout.inside
    · simp [newline, indentAt?_eq_none]
    · simp [newline]

/-- All cuts but those for an indentation are at boundaries. -/
lemma exists_cut_iff :
    (∃ n ∈ list.cuts document, ¬ IsBoundary document n) ↔
      ∃ last, list.entries.getLast? = some last ∧ '\n' ∈ layout.inside ∧
        ¬ IsBoundary document (last.stop - 1) := by
  obtain ⟨before, behind, -⟩ := isBoundary_lexeme layout.mem_lexemes.1
  obtain ⟨before', behind', -⟩ := isBoundary_lexeme layout.mem_lexemes.2
  have slice : Span.slice ⟨list.opening.stop, list.closing.start⟩ document = layout.inside := by
    rw [Span.slice, layout.slice?_inside, Option.getD_some]
  rw [ImportsList.cuts, slice]
  cases h : list.entries.getLast? with
  | none => simp [before, behind, before', behind']
  | some last =>
    obtain ⟨entry, rfl⟩ := @exists_lastEntry _ _ layout _ h
    have stop := (isBoundary_lexeme entry.mem_lexemes).2.1
    by_cases newline : '\n' ∈ layout.inside
    · -- At a boundary the line and its indentation are found; elsewhere that cut fails already.
      by_cases boundary : IsBoundary document (entry.last.stop - 1)
      · obtain ⟨front, indent, rest, whole, -, start, blanks⟩ := exists_indent boundary
        have line : IsBoundary document (lineStart document (entry.last.stop - 1)) :=
          ⟨front, _, whole, start⟩
        have solid : IsBoundary document
            (blankStop document (lineStart document (entry.last.stop - 1))) :=
          ⟨front ++ indent, rest, by rw [whole, List.append_assoc], blanks⟩
        simp [newline, before, before', stop, boundary, line, solid]
      · simp [newline, boundary]
    · simp [newline, before, before', stop]

end Layout

/-- A registration has no result in one case only: the registry, with its import line, has a first
imports list in which the module is missing, with a line feed between its brackets and with entries
of which the last ends with a word whose last character is not ASCII. Whatever the registry holds,
its lexemes lie between characters, and a registration that has to insert a module has a result
exactly if all the cuts it makes do. -/
theorem register?_eq_none_iff (root document : String) (name : EntityName) :
    (register? root document name = none ↔
      ∃ list inside last text c,
        ImportsList.find? (imported root document name) = some list ∧
        list.hasWord (bytesOf name.module) = false ∧
        Span.slice? ⟨list.opening.stop, list.closing.start⟩ (imported root document name) =
          some inside ∧
        '\n' ∈ inside ∧
        list.entries.getLast? = some last ∧
        last.kind = .word ∧
        Span.slice? ⟨last.start, last.stop⟩ (imported root document name) = some text ∧
        text.getLast? = some c ∧
        0x80 ≤ c.toNat) ∧
    (∀ l ∈ lexemes next 0 (bytes (imported root document name)),
      IsBoundary (imported root document name) l.start ∧
      IsBoundary (imported root document name) l.stop ∧
      (l.kind = .blockComment → IsBoundary (imported root document name) (l.start + 2))) ∧
    ∀ list, ImportsList.find? (imported root document name) = some list →
      list.hasWord (bytesOf name.module) = false →
      (register? root document name = none ↔
        ∃ n ∈ list.cuts (imported root document name),
          ¬ IsBoundary (imported root document name) n) := by
  refine ⟨?_, fun l => isBoundary_lexeme, ?_⟩
  · rw [register?_eq_none]
    constructor
    · rintro ⟨list, find, word, insert⟩
      obtain ⟨layout⟩ := exists_layout find
      obtain ⟨last, h, newline, inside⟩ := (layout.insert?_eq_none _).mp insert
      obtain ⟨entry, rfl⟩ := @exists_lastEntry _ _ layout _ h
      obtain ⟨kind, text, c, slice, ends, high⟩ := entry.not_isBoundary_pred_iff.mp inside
      exact ⟨list, _, _, text, c, find, word, layout.slice?_inside, newline, h, kind, slice, ends,
        high⟩
    · rintro ⟨list, inside, last, text, c, find, word, between, newline, h, kind, slice, ends, high⟩
      obtain ⟨layout⟩ := exists_layout find
      obtain rfl := Option.some.inj (layout.slice?_inside.symm.trans between)
      obtain ⟨entry, rfl⟩ := @exists_lastEntry _ _ layout _ h
      have cut := entry.not_isBoundary_pred_iff.mpr ⟨kind, text, c, slice, ends, high⟩
      exact ⟨list, find, word, (layout.insert?_eq_none _).mpr ⟨_, h, newline, cut⟩⟩
  · intro list find word
    obtain ⟨layout⟩ := exists_layout find
    rw [layout.exists_cut_iff, ← layout.insert?_eq_none name.module.toList, register?_eq_none]
    constructor
    · rintro ⟨_, find', -, insert⟩
      obtain rfl := Option.some.inj (find.symm.trans find')
      exact insert
    · exact fun insert => ⟨list, find, word, insert⟩

end EntityForge.Registry

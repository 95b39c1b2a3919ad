import EntityForge.Proofs.Registry.ImportsList
import EntityForge.Proofs.Text.Bytes
import EntityForge.Registry.Registration
import Mathlib

/-!
# The import line as code

The line that imports a module is read as seven tokens, whatever follows it, if the forms of the
name are identifiers and the path has no quote of its own. So a registry with this line on top has
these tokens and then its own.
-/

namespace EntityForge.Registry

open Text

/-- Whether all bytes of a text can stand in an identifier. -/
def IsIdentifier (s : String) : Prop :=
  ∀ b ∈ bytesOf s, isIdentifierByte b

/-- Whether a text is an identifier can be checked byte by byte. -/
instance (s : String) : Decidable (IsIdentifier s) :=
  inferInstanceAs (Decidable (∀ b ∈ bytesOf s, isIdentifierByte b))

/-- The path that an import line names. -/
def modulePath (root : String) (name : EntityName) : List Char :=
  dropEnd (· = '/') root.toList ++ '/' :: name.slug.toList ++ '/' :: name.slug.toList ++
    ".module".toList

/-- The pieces of an import line. -/
def importPieces (root : String) (name : EntityName) : List Piece :=
  [wordPiece (bytesOf "import"), (.space, [0x20]), markPiece 0x7B, (.space, [0x20]),
    wordPiece (bytesOf name.module), (.space, [0x20]), markPiece 0x7D, (.space, [0x20]),
    wordPiece (bytesOf "from"), (.space, [0x20]),
    (.literal, 0x27 :: (bytes (modulePath root name) ++ [0x27])), markPiece 0x3B]

/-- The code of an import line. -/
def importCode (root : String) (name : EntityName) : List Piece :=
  [wordPiece (bytesOf "import"), markPiece 0x7B, wordPiece (bytesOf name.module), markPiece 0x7D,
    wordPiece (bytesOf "from"), (.literal, 0x27 :: (bytes (modulePath root name) ++ [0x27])),
    markPiece 0x3B]

/-! ### Identifiers -/

/-- A character that is one byte and none of an identifier does not stand in one. -/
lemma IsIdentifier.not_mem {s : String} (h : IsIdentifier s) {c : Char} (ascii : c.toNat < 0x80)
    (other : isIdentifierByte c.toUInt8 = false) : c ∉ s.toList := by
  intro mem
  have ident := h c.toUInt8 ((mem_bytes_iff ascii).mpr mem)
  rw [other] at ident
  cases ident

/-- The class of an entity is an identifier if the capitalised name is one. -/
lemma IsIdentifier.module {name : EntityName} (h : IsIdentifier name.title) :
    IsIdentifier name.module := by
  intro b mem
  rw [EntityName.module, bytesOf_append, List.mem_append] at mem
  cases mem with
  | inl mem => exact h b mem
  | inr mem =>
    have all : ∀ b ∈ bytesOf "Module", isIdentifierByte b := by decide +kernel
    exact all b mem

/-- The class of an entity ends with the word `Module`. -/
lemma toList_module (name : EntityName) :
    name.module.toList = name.title.toList ++ "Module".toList :=
  String.toList_append

/-! ### Pieces of the line -/

/-- Bytes without a certain quote, of which no backslash is the last, can stand between two of
them. -/
lemma literalBody_of_not_mem {quote : UInt8} {bs : List UInt8} (none : quote ∉ bs)
    (last : bs.getLast? ≠ some 0x5C) : LiteralBody quote bs := by
  fun_induction LiteralBody quote bs with
  | case1 => trivial
  | case2 b =>
    exact ⟨fun e => last (congrArg some e), fun e => none (e ▸ List.mem_singleton_self b)⟩
  | case3 c rest ih =>
    refine ih (fun mem => none (by simp [mem])) fun e => ?_
    cases rest with
    | nil => cases e
    | cons d rest => exact last (by simpa using e)
  | case4 b c rest escape ih =>
    refine ⟨fun e => none (e ▸ List.mem_cons_self), ih (fun mem => none (by simp [mem])) ?_⟩
    exact fun e => last (by simpa using e)

/-- The path of a module has no quote if the path to the output folder has none. -/
lemma quote_not_mem_modulePath {root : String} {name : EntityName} (hroot : '\'' ∉ root.toList)
    (slug : IsIdentifier name.slug) : '\'' ∉ modulePath root name := by
  have hslug := slug.not_mem (c := '\'') (by decide) (by decide)
  have hfolder : '\'' ∉ dropEnd (· = '/') root.toList :=
    fun mem => hroot ((List.rdropWhile_prefix _ _).subset mem)
  simp only [modulePath, List.mem_append, List.mem_cons, not_or]
  exact ⟨⟨⟨hfolder, by decide, hslug⟩, by decide, hslug⟩, by decide⟩

/-- The characters of an import line. -/
lemma toList_importLine (root : String) (name : EntityName) :
    (importLine root name).toList =
      "import \x7b ".toList ++ name.module.toList ++ " \x7d from '".toList ++
        modulePath root name ++ "';".toList := by
  simp [importLine, modulePath]

/-- The pieces of an import line make up the line. -/
lemma spell_importPieces (root : String) (name : EntityName) :
    spell (importPieces root name) = bytes (importLine root name).toList := by
  have start : bytes "import \x7b ".toList = bytesOf "import" ++ [0x20, 0x7B, 0x20] := by
    decide +kernel
  have middle : bytes " \x7d from '".toList = [0x20, 0x7D, 0x20] ++ bytesOf "from" ++ [0x20, 0x27] := by
    decide +kernel
  have stop : bytes "';".toList = [0x27, 0x3B] := by decide +kernel
  rw [toList_importLine]
  simp only [bytes_append, start, middle, stop]
  simp [importPieces, wordPiece, markPiece, bytesOf]

/-- The code of an import line is what is code of its pieces. -/
lemma filter_importPieces (root : String) (name : EntityName) :
    (importPieces root name).filter (·.1.isCode) = importCode root name := rfl

/-- A line feed is one byte. -/
lemma bytes_newline (s : List Char) : bytes ('\n' :: s) = 0x0A :: bytes s := rfl

/-- A line feed between lexemes is white space. -/
lemma pieces_newline (rest : List UInt8) :
    pieces next (0x0A :: rest) = (.space, [0x0A]) :: pieces next rest := by
  have read : next 0x0A rest = (.space, 0) := by
    simp [next, isQuote, isSpaceByte]
  rw [pieces_cons, read]
  rfl

section

variable {root : String} {name : EntityName} (hroot : '\'' ∉ root.toList)
  (title : IsIdentifier name.title) (slug : IsIdentifier name.slug)

include hroot title slug

/-- The pieces of an import line are complete, whatever follows it. -/
lemma chained_importPieces (z : UInt8) : Chained Complete (importPieces root name) z := by
  have space {z : UInt8} : Complete .space [0x20] z := .space (by decide)
  have mark {b z : UInt8} (hb : isMarkByte b) (slash : b ≠ 0x2F) :
      Complete .punctuation [b] z := .punctuation hb fun e => absurd e slash
  have word {s : String} (ne : bytesOf s ≠ []) (ident : IsIdentifier s) :
      Complete .word (bytesOf s) 0x20 := .word ne ident (by decide)
  have ne : bytesOf name.module ≠ [] := by
    rw [EntityName.module, bytesOf_append]
    exact List.append_ne_nil_of_right_ne_nil _ (by decide +kernel)
  have path : LiteralBody 0x27 (bytes (modulePath root name)) := by
    refine literalBody_of_not_mem ?_ ?_
    · exact mt (mem_bytes_iff (c := '\'') (by decide)).mp (quote_not_mem_modulePath hroot slug)
    · rw [modulePath, bytes_append, show bytes ".module".toList = bytesOf ".modul" ++ [0x65] by
        decide +kernel, ← List.append_assoc, List.getLast?_concat]
      decide
  refine ⟨word (by decide +kernel) (by decide +kernel), space, mark (by decide) (by decide), space,
    word ne title.module, space, mark (by decide) (by decide), space,
    word (by decide +kernel) (by decide +kernel), space, .literal (by decide) path,
    mark (by decide) (by decide), trivial⟩

/-- An import line is read as its pieces, whatever follows it. -/
lemma pieces_importLine_append (rest : List UInt8) :
    pieces next (bytes (importLine root name).toList ++ rest) =
      importPieces root name ++ pieces next rest := by
  rw [← spell_importPieces]
  cases rest with
  | cons z rest => exact scans.pieces_append (chained_importPieces hroot title slug z)
  | nil =>
    have chained := chained_importPieces hroot title slug 0
    have split : importPieces root name = (importPieces root name).dropLast ++ [markPiece 0x3B] :=
      rfl
    rw [split, chained_append] at chained
    have read : next 0x3B [] = (.punctuation, 0) := by decide
    have last : pieces next [0x3B] = [markPiece 0x3B] := by
      rw [pieces_cons, read]
      exact congrArg _ pieces_nil
    rw [List.append_nil, pieces_nil, List.append_nil, split, spell_append]
    exact (@Scans.pieces_append _ _ _ scans _ _ [] chained.1).trans (congrArg _ last)

/-- An import line on its own is read as its code. -/
lemma code_importLine : code (importLine root name).toList = importCode root name := by
  have whole := pieces_importLine_append hroot title slug []
  rw [List.append_nil, pieces_nil, List.append_nil] at whole
  rw [code_eq_filter, whole, filter_importPieces]

/-- A registry with an import line on top is read as the line and then the registry. -/
lemma code_importLine_append (document : List Char) :
    code ((importLine root name).toList ++ '\n' :: document) =
      importCode root name ++ code document := by
  rw [code_eq_filter, code_eq_filter, bytes_append, bytes_newline,
    pieces_importLine_append hroot title slug, pieces_newline, List.filter_append,
    filter_importPieces]
  rfl

end

/-- An import line does not have the word `imports`. -/
lemma imports_not_mem_importCode (root : String) (name : EntityName) :
    wordPiece (bytesOf "imports") ∉ importCode root name := by
  have last : bytesOf "imports" ≠ bytesOf name.module := by
    rw [EntityName.module, bytesOf_append, show bytesOf "Module" = bytesOf "Modul" ++ [0x65] by
      decide +kernel, show bytesOf "imports" = bytesOf "import" ++ [0x73] by decide +kernel,
      ← List.append_assoc]
    intro e
    have := (List.append_inj' e rfl).2
    revert this
    decide
  simp [importCode, wordPiece, markPiece, last]
  decide +kernel

end EntityForge.Registry

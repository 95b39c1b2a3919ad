import EntityForge.Proofs.Registry.Registration
import Mathlib

/-!
# The import in the code of a registry

Whether a registry has the import line of an entity is asked of its lines, and a line may stand in a
comment or in a literal. So after a registration the import stands in the code if it was put on top
now, or if it was in the code before: nothing else that a registration does makes or breaks one.
-/

namespace EntityForge.Registry

open Text

/-! ### Stretches of code -/

/-- What does not have a certain element stands on one side of it. -/
lemma infix_append_cons_iff {α : Type} {c : α} {l a b : List α} (h : c ∉ l) :
    l <:+: a ++ c :: b ↔ l <:+: a ∨ l <:+: b := by
  constructor
  · rintro ⟨front, back, whole⟩
    rw [List.append_assoc] at whole
    obtain ⟨d, rfl, rest⟩ | ⟨d, rfl, rest⟩ := List.append_eq_append_iff.mp whole
    · obtain ⟨f, rfl, -⟩ | ⟨f, rfl, e⟩ := List.append_eq_append_iff.mp rest
      · exact .inl ⟨front, f, List.append_assoc _ _ _⟩
      · cases f with
        | nil => exact .inl ⟨front, [], by simp⟩
        | cons g f =>
          -- The element would be the first one that `l` has beyond `a`.
          cases (List.cons.inj e).1
          exact absurd (List.mem_append_right d List.mem_cons_self) h
    · cases d with
      | nil =>
        cases l with
        | nil => exact .inr List.nil_infix
        | cons g l =>
          cases (List.cons.inj rest).1
          exact absurd List.mem_cons_self h
      | cons g d =>
        refine .inr ⟨d, back, ?_⟩
        rw [List.append_assoc]
        exact (List.cons.inj rest).2.symm
  · rintro (here | here)
    · exact here.trans (List.prefix_append a _).isInfix
    · exact here.trans ((List.suffix_cons c b).trans (List.suffix_append a _)).isInfix

/-- A single piece has no longer stretch in it. -/
private lemma not_infix_singleton {l : List Piece} (long : 1 < l.length) (p : Piece) :
    ¬ l <:+: [p] :=
  fun h => Nat.not_lt.mpr h.length_le long

/-- Code of more than one piece and without commas stands in an extended list only if it did
before. -/
lemma infix_extend_iff {l : List Piece} (long : 1 < l.length) (h : comma ∉ l)
    (entries : List Piece) (module : List UInt8) :
    l <:+: extend entries module ↔ l <:+: entries := by
  have word := not_infix_singleton long (wordPiece module)
  have none : ¬ l <:+: [] := fun empty => by
    rw [List.infix_nil.mp empty] at long
    exact Nat.not_lt_zero _ long
  rw [extend]
  split_ifs with ends
  · obtain rfl | last := ends
    · exact iff_of_false word none
    · obtain ⟨init, rfl⟩ := List.getLast?_eq_some_iff.mp last
      rw [List.append_assoc, List.singleton_append, infix_append_cons_iff h,
        infix_append_cons_iff h, or_iff_left word, or_iff_left none]
  · rw [infix_append_cons_iff h, or_iff_left word]

section

variable {root document : String} {name : EntityName} {r : Registration}
  (hroot : '\'' ∉ root.toList) (title : IsIdentifier name.title) (slug : IsIdentifier name.slug)

include hroot title slug

/-- Behind the code of a new import line, the import stands in the code of a registry exactly if it
did before. -/
lemma Registers.exists_code_eq (h : Registers root document name r) :
    ∃ rest, code r.document.toList = (if r.importAdded then importCode root name else []) ++ rest ∧
      (importCode root name <:+: rest ↔ importCode root name <:+: code document.toList) := by
  cases added : r.entryAdded with
  | false => exact ⟨_, h.code_of_not_entryAdded hroot title slug added, Iff.rfl⟩
  | true =>
    obtain ⟨before, entries, after, first, e⟩ := h.code_of_entryAdded hroot title slug added
    refine ⟨_, e, ?_⟩
    -- The import has none of the marks around which the code is the same as before.
    have noCloser : closer ∉ importCode root name := by simp [importCode, wordPiece, markPiece]
    have noOpener : opener ∉ importCode root name := by simp [importCode, wordPiece, markPiece]
    have noComma : comma ∉ importCode root name := by simp [importCode, wordPiece, markPiece]
    have split (entries : List Piece) : before ++ header ++ entries =
        (before ++ [wordPiece (bytesOf "imports"), markPiece 0x3A]) ++ opener :: entries := by
      simp [header]
    rw [first.split, infix_append_cons_iff noCloser, infix_append_cons_iff noCloser, split, split,
      infix_append_cons_iff noOpener, infix_append_cons_iff noOpener,
      infix_extend_iff (by simp [importCode]) noComma]

/-- The import stands in the code of a registry if its line is new or it stood there before. -/
lemma Registers.infix_code_iff (h : Registers root document name r) :
    importCode root name <:+: code r.document.toList ↔
      r.importAdded = true ∨ importCode root name <:+: code document.toList := by
  obtain ⟨rest, e, same⟩ := h.exists_code_eq hroot title slug
  rw [e]
  split_ifs with added
  · exact iff_of_true (List.prefix_append _ rest).isInfix (.inl added)
  · rw [List.nil_append, same, or_iff_right added]

/-- An import line stands in the code if a token begins where the line does. -/
lemma infix_code_of_start {document front back : List Char} {t : Token}
    (split : document = front ++ ((importLine root name).toList ++ back))
    (mem : t ∈ tokens document) (start : t.start = (bytes front).length) :
    importCode root name <:+: code document := by
  obtain ⟨ls, ms, e⟩ := List.append_of_mem (List.mem_of_mem_filter mem)
  have place := start_eq e
  have whole : pieces next (bytes document) =
      ls.map Lexeme.piece ++ (t :: ms).map Lexeme.piece := by
    rw [pieces, e, List.map_append]
  have spelled : spell (ls.map Lexeme.piece) ++ spell ((t :: ms).map Lexeme.piece) =
      bytes front ++ (bytes (importLine root name).toList ++ bytes back) := by
    rw [← spell_append, ← whole, spell_pieces, split, bytes_append, bytes_append]
  -- The pieces from the token on are read on their own, and then they begin with the line.
  obtain ⟨-, rest⟩ := List.append_inj spelled (by omega)
  have read := pieces_spell_of_append whole
  rw [rest, pieces_importLine_append hroot title slug] at read
  rw [code_eq_filter, whole, ← read, List.filter_append, List.filter_append, filter_importPieces]
  exact ⟨_, _, List.append_assoc _ _ _⟩

end

/-- After a registration the import of the module stands in the code exactly if its line was put on
top, no line of the registry being that one, or if it stood in the code before. It does so where one
of the lines begins with a token; otherwise the line may stand in comments and literals only, which
counts as well. -/
theorem register?_imports_iff {root document : String} {name : EntityName} {r : Registration}
    (quote : '\'' ∉ root.toList) (title : IsIdentifier name.title) (slug : IsIdentifier name.slug)
    (h : register? root document name = some r) :
    r.importAdded = !hasLine document.toList (importLine root name).toList ∧
    (importCode root name <:+: code r.document.toList ↔
      r.importAdded = true ∨ importCode root name <:+: code document.toList) ∧
    ∀ front back t, document.toList = front ++ ((importLine root name).toList ++ back) →
      t ∈ tokens document.toList → t.start = (bytes front).length →
      importCode root name <:+: code r.document.toList := by
  have h := registers_of_register? h
  have whole := h.infix_code_iff quote title slug
  refine ⟨h.importAdded_eq, whole, fun front back t split mem start => ?_⟩
  exact whole.mpr (.inr (infix_code_of_start quote title slug split mem start))

/-- An import line that is indented stands in the code of a registry. -/
theorem register?_imports_user :
    ∃ r, register? "../modules"
        "  import \x7b UserModule \x7d from '../modules/user/user.module';\nimports: []\n" ⟨"user"⟩ =
          some r ∧
      r.importAdded = false ∧
      importCode "../modules" ⟨"user"⟩ <:+: code r.document.toList := by
  have h : register? "../modules"
      "  import \x7b UserModule \x7d from '../modules/user/user.module';\nimports: []\n" ⟨"user"⟩ =
      some ⟨"  import \x7b UserModule \x7d from '../modules/user/user.module';\n" ++
        "imports: [\n    UserModule\n  ]\n", false, true, true⟩ := by
    decide +kernel
  obtain ⟨t, mem, start⟩ : ∃ t ∈ tokens
      "  import \x7b UserModule \x7d from '../modules/user/user.module';\nimports: []\n".toList,
      t.start = (bytes "  ".toList).length := by
    decide +kernel
  obtain ⟨-, -, live⟩ :=
    register?_imports_iff (by simp) (by decide +kernel) (by decide +kernel) h
  exact ⟨_, h, rfl, live "  ".toList "\nimports: []\n".toList t (by decide +kernel) mem start⟩

/-- An import line in a comment is not put into the code. -/
theorem register?_not_imports_of_comment :
    ¬ ∀ (root document : String) (name : EntityName) (r : Registration),
      '\n' ∉ root.toList → '\'' ∉ root.toList → IsIdentifier name.title → IsIdentifier name.slug →
      register? root document name = some r →
      importCode root name <:+: code r.document.toList := by
  intro all
  have h : register? "../modules"
      "/*\nimport \x7b AModule \x7d from '../modules/a/a.module';\n*/\nimports: []\n" ⟨"a"⟩ =
      some ⟨"/*\nimport \x7b AModule \x7d from '../modules/a/a.module';\n*/\n" ++
        "imports: [\n    AModule\n  ]\n", false, true, true⟩ := by
    decide +kernel
  have live := all _ _ _ _ (by simp) (by simp) (by decide +kernel) (by decide +kernel) h
  revert live
  decide +kernel

end EntityForge.Registry

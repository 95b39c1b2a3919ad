import EntityForge.Proofs.Registry.Division
import EntityForge.Proofs.Registry.Registration
import Mathlib

/-!
# Entries and their options

An entry of an imports list can have options, with lists and objects of their own. A module that is
added becomes an entry of the list itself. A module that is there already may be mentioned in the
options of an entry only: any word of the list counts.
-/

namespace EntityForge.Registry

open Text

/-- The marks that open and close brackets, parentheses and braces. -/
def brackets : List (Piece × Piece) :=
  [(opener, closer), (markPiece 0x28, markPiece 0x29), (markPiece 0x7B, markPiece 0x7D)]

/-- Whether a piece opens or closes brackets, parentheses or braces. -/
def IsBracket (p : Piece) : Prop :=
  ∃ pair ∈ brackets, p = pair.1 ∨ p = pair.2

/-- Brackets can be looked up. -/
instance (p : Piece) : Decidable (IsBracket p) :=
  inferInstanceAs (Decidable (∃ pair ∈ brackets, p = pair.1 ∨ p = pair.2))

/-- Code in which brackets, parentheses and braces are properly nested. -/
inductive Nested : List Piece → Prop where
  | nil :
    Nested []
  | single {p} :
    ¬ IsBracket p →
    Nested [p]
  | append {ps qs} :
    Nested ps →
    Nested qs →
    Nested (ps ++ qs)
  | enclose {opening closing ps} :
    (opening, closing) ∈ brackets →
    Nested ps →
    Nested (opening :: (ps ++ [closing]))

/-- Whether a word stands among entries outside all brackets and braces. -/
def Listed (word : List UInt8) (entries : List Piece) : Prop :=
  ∃ front, front ++ [wordPiece word] <+: entries ∧
    front.count opener = front.count closer ∧
    front.count (markPiece 0x7B) = front.count (markPiece 0x7D)

/-- Whether a word is listed can be checked by counting brackets. -/
instance (word : List UInt8) (entries : List Piece) : Decidable (Listed word entries) :=
  decidable_of_iff (∃ front ∈ entries.inits, front ++ [wordPiece word] <+: entries ∧
      front.count opener = front.count closer ∧
      front.count (markPiece 0x7B) = front.count (markPiece 0x7D)) <| by
    constructor
    · exact fun ⟨front, _, h⟩ => ⟨front, h⟩
    · exact fun ⟨front, h⟩ =>
        ⟨front, (List.mem_inits _ _).mpr ((List.prefix_append front _).trans h.1), h⟩

/-! ### Nested code -/

/-- Code without brackets is nested. -/
lemma nested_of_forall {ps : List Piece} (h : ∀ p ∈ ps, ¬ IsBracket p) : Nested ps := by
  induction ps with
  | nil => exact .nil
  | cons p ps ih =>
    obtain ⟨first, others⟩ := List.forall_mem_cons.mp h
    exact .append (.single first) (ih others)

/-- Brackets of one sort are closed as often as they are opened. -/
lemma Nested.count_eq {ps : List Piece} (h : Nested ps) {opening closing : Piece}
    (sort : (opening, closing) ∈ brackets) : ps.count opening = ps.count closing := by
  induction h with
  | nil => rfl
  | @single p other =>
    have opens : opening ≠ p := fun e => other ⟨_, sort, .inl e.symm⟩
    have closes : closing ≠ p := fun e => other ⟨_, sort, .inr e.symm⟩
    rw [List.count_eq_zero.mpr (by simpa using opens), List.count_eq_zero.mpr (by simpa using closes)]
  | append _ _ ihp ihq => rw [List.count_append, List.count_append, ihp, ihq]
  | @enclose opening' closing' ps sort' _ ih =>
    have own : [opening', closing'].count opening = [opening', closing'].count closing := by
      have all : ∀ a ∈ brackets, ∀ b ∈ brackets, [b.1, b.2].count a.1 = [b.1, b.2].count a.2 := by
        decide
      exact all _ sort _ sort'
    -- For a count it does not matter that the closing bracket comes last.
    have perm : (opening' :: (ps ++ [closing'])).Perm ([opening', closing'] ++ ps) :=
      List.Perm.cons _ List.perm_append_comm
    rw [perm.count_eq, perm.count_eq, List.count_append, List.count_append, own, ih]

/-- A word is no bracket. -/
lemma not_isBracket_wordPiece (word : List UInt8) : ¬ IsBracket (wordPiece word) := by
  simp [IsBracket, brackets, wordPiece, markPiece]

/-- A list stays properly nested when a module is added. -/
lemma Nested.extend {entries : List Piece} (h : Nested entries) (module : List UInt8) :
    Nested (extend entries module) := by
  have word := not_isBracket_wordPiece module
  rw [Registry.extend]
  split_ifs
  · exact h.append (.single word)
  · exact h.append (nested_of_forall (by simp [word]; decide))

/-- A module that is added is an entry of the list itself. -/
lemma listed_extend {entries : List Piece} (h : Nested entries) (module : List UInt8) :
    Listed module (extend entries module) := by
  have square := h.count_eq (.head _)
  have curly := h.count_eq (.tail _ (.tail _ (.head _)))
  rw [extend]
  split_ifs
  · exact ⟨entries, List.prefix_refl _, square, curly⟩
  · refine ⟨entries ++ [comma], ?_, ?_, ?_⟩
    · rw [List.append_assoc]
      exact List.prefix_refl _
    · rw [List.count_append, List.count_append, square]
      rfl
    · rw [List.count_append, List.count_append, curly]
      rfl

/-! ### The list after a registration -/

section

variable {root document : String} {name : EntityName} {list : ImportsList}
  (hroot : '\'' ∉ root.toList) (title : IsIdentifier name.title) (slug : IsIdentifier name.slug)

include hroot title slug

/-- The import line on top leaves the list as it is. -/
lemma exists_find?_imported (find : ImportsList.find? document.toList = some list) :
    ∃ list', ImportsList.find? (imported root document name) = some list' ∧
      list'.entries.map Lexeme.piece = list.entries.map Lexeme.piece := by
  obtain ⟨layout⟩ := exists_layout find
  rw [imported]
  split_ifs
  · exact ⟨list, find, rfl⟩
  · exact layout.division.importLine_append hroot title slug |>.exists_find?

/-- After a registration the list is found again, with the module behind its entries if that was
missing. -/
lemma Registers.exists_find? {r : Registration} (h : Registers root document name r)
    (find : ImportsList.find? document.toList = some list) :
    ∃ list', ImportsList.find? r.document.toList = some list' ∧
      list'.entries.map Lexeme.piece =
        if list.hasWord (bytesOf name.module) then list.entries.map Lexeme.piece
        else extend (list.entries.map Lexeme.piece) (bytesOf name.module) := by
  obtain ⟨list₀, find₀, entries⟩ := exists_find?_imported hroot title slug find
  have same : list₀.hasWord (bytesOf name.module) = list.hasWord (bytesOf name.module) := by
    rw [Bool.eq_iff_iff, hasWord_iff, hasWord_iff, entries]
  cases h with
  | noList none =>
    rw [none] at find₀
    cases find₀
  | present found word =>
    rw [found] at find₀
    cases find₀
    rw [String.toList_ofList, ← same, word, if_pos rfl]
    exact ⟨_, found, entries⟩
  | added layout found word ext =>
    rw [found] at find₀
    cases find₀
    rw [String.toList_ofList, ← same, word, if_neg Bool.false_ne_true, ← entries]
    exact (ext.isFirstList (module_ne_nil name) title.module).exists_find?

end

/-- A registration leaves the module of its entity in the first imports list, and the list properly
nested. A module that was missing is the last entry of the list now. If a word of the list was the
module, then the list has not changed: the module stands outside the brackets and braces of entries
only if it did so before. -/
theorem register?_listed {root document : String} {name : EntityName} {list : ImportsList}
    {r : Registration} (quote : '\'' ∉ root.toList) (title : IsIdentifier name.title)
    (slug : IsIdentifier name.slug) (find : ImportsList.find? document.toList = some list)
    (nested : Nested (list.entries.map Lexeme.piece))
    (h : register? root document name = some r) :
    ∃ list', ImportsList.find? r.document.toList = some list' ∧
      list'.entries.map Lexeme.piece =
        (if list.hasWord (bytesOf name.module) then list.entries.map Lexeme.piece
        else extend (list.entries.map Lexeme.piece) (bytesOf name.module)) ∧
      Nested (list'.entries.map Lexeme.piece) ∧
      list'.hasWord (bytesOf name.module) = true ∧
      (Listed (bytesOf name.module) (list'.entries.map Lexeme.piece) ↔
        list.hasWord (bytesOf name.module) = true →
          Listed (bytesOf name.module) (list.entries.map Lexeme.piece)) := by
  obtain ⟨list', find', entries⟩ :=
    (registers_of_register? h).exists_find? quote title slug find
  refine ⟨list', find', entries, ?_⟩
  rw [@hasWord_iff list', entries]
  split_ifs with word
  · exact ⟨nested, hasWord_iff.mp word, fun listed _ => listed, fun listed => listed word⟩
  · exact ⟨nested.extend _, mem_extend _ _,
      iff_of_true (listed_extend nested _) fun present => absurd present word⟩

/-- A list with an entry that has a module in its options. -/
private lemma exists_find?_options :
    ∃ list, ImportsList.find? "imports: [X.forRoot(\x7b imports: [AModule] \x7d)]\n".toList =
        some list ∧
      Nested (list.entries.map Lexeme.piece) ∧
      list.hasWord (bytesOf "UserModule") = false := by
  obtain ⟨list, find⟩ := Option.isSome_iff_exists.mp
    (show (ImportsList.find?
      "imports: [X.forRoot(\x7b imports: [AModule] \x7d)]\n".toList).isSome by decide +kernel)
  have all : ∀ list ∈ ImportsList.find?
      "imports: [X.forRoot(\x7b imports: [AModule] \x7d)]\n".toList,
      list.entries.map Lexeme.piece =
        [wordPiece (bytesOf "X"), markPiece 0x2E, wordPiece (bytesOf "forRoot")] ++
          markPiece 0x28 :: (markPiece 0x7B :: (([wordPiece (bytesOf "imports"), markPiece 0x3A] ++
            opener :: ([wordPiece (bytesOf "AModule")] ++ [closer])) ++ [markPiece 0x7D]) ++
              [markPiece 0x29]) ∧
      list.hasWord (bytesOf "UserModule") = false := by
    decide +kernel
  obtain ⟨entries, absent⟩ := all list find
  have module : Nested (opener :: ([wordPiece (bytesOf "AModule")] ++ [closer])) :=
    .enclose (by decide) (.single (by decide +kernel))
  refine ⟨list, find, entries ▸ .append ?_ (.enclose ?_ (.enclose ?_ (.append ?_ module))), absent⟩
  · exact nested_of_forall (by decide +kernel)
  · decide
  · decide
  · exact nested_of_forall (by decide +kernel)

/-- Another module goes behind an entry with options. -/
theorem register?_listed_user :
    ∃ r list,
      register? "../modules" "imports: [X.forRoot(\x7b imports: [AModule] \x7d)]\n" ⟨"user"⟩ =
        some r ∧
      ImportsList.find? r.document.toList = some list ∧
      Listed (bytesOf "UserModule") (list.entries.map Lexeme.piece) := by
  have h : register? "../modules" "imports: [X.forRoot(\x7b imports: [AModule] \x7d)]\n" ⟨"user"⟩ =
      some ⟨"import \x7b UserModule \x7d from '../modules/user/user.module';\n" ++
        "imports: [X.forRoot(\x7b imports: [AModule] \x7d), UserModule]\n", true, true, true⟩ := by
    decide +kernel
  obtain ⟨list, find, nested, absent⟩ := exists_find?_options
  obtain ⟨list', find', -, -, -, listed⟩ := register?_listed (by simp) (by decide +kernel)
    (by decide +kernel) find nested h
  have name : bytesOf (⟨"user"⟩ : EntityName).module = bytesOf "UserModule" := by decide +kernel
  rw [name, absent] at listed
  exact ⟨_, list', h, find', listed.mpr fun present => nomatch present⟩

/-- A module that stands in the options of an entry only is not made an entry. -/
theorem register?_not_listed_of_options :
    ¬ ∀ (root document : String) (name : EntityName) (list : ImportsList) (r : Registration),
      '\'' ∉ root.toList → IsIdentifier name.title → IsIdentifier name.slug →
      ImportsList.find? document.toList = some list →
      Nested (list.entries.map Lexeme.piece) →
      register? root document name = some r →
      ∃ list', ImportsList.find? r.document.toList = some list' ∧
        Listed (bytesOf name.module) (list'.entries.map Lexeme.piece) := by
  intro all
  have h : register? "../modules" "imports: [X.forRoot(\x7b imports: [AModule] \x7d)]\n" ⟨"a"⟩ =
      some ⟨"import \x7b AModule \x7d from '../modules/a/a.module';\n" ++
        "imports: [X.forRoot(\x7b imports: [AModule] \x7d)]\n", true, false, true⟩ := by
    decide +kernel
  have unlisted : ∀ list ∈ ImportsList.find?
      ("import \x7b AModule \x7d from '../modules/a/a.module';\n" ++
        "imports: [X.forRoot(\x7b imports: [AModule] \x7d)]\n").toList,
      ¬ Listed (bytesOf (⟨"a"⟩ : EntityName).module) (list.entries.map Lexeme.piece) := by
    decide +kernel
  obtain ⟨list, find, nested, -⟩ := exists_find?_options
  obtain ⟨list', find', listed⟩ := all _ _ _ _ _ (by simp) (by decide +kernel) (by decide +kernel)
    find nested h
  exact unlisted list' find' listed

end EntityForge.Registry

import EntityForge.Text.Line
import Mathlib

/-!
# Parts of a text

Where a part of a text is replaced, and where a text is split at it: not before its first occurrence,
and behind an occurrence all starts anew. Texts that a separator does not begin in are joined with it
and split again.
-/

namespace EntityForge.Text

variable {part s t : List Char}

/-! ### Texts that a part does not begin in -/

/-- Whether a part begins nowhere in a text that has another one behind it. -/
def Spared (part s t : List Char) : Prop :=
  ∀ u v, s = u ++ v → v ≠ [] → ¬ part <+: v ++ t

/-- Nothing spares every part. -/
lemma spared_nil : Spared part [] t :=
  fun _ _ split ne => absurd (List.append_eq_nil_iff.mp split.symm).2 ne

/-- A part is spared if it does not begin at once and is spared by the rest. -/
lemma spared_cons {c : Char} :
    Spared part (c :: s) t ↔ ¬ part <+: c :: (s ++ t) ∧ Spared part s t := by
  constructor
  · intro h
    exact ⟨h [] (c :: s) rfl (List.cons_ne_nil c s),
      fun u v split => h (c :: u) v (congrArg (c :: ·) split)⟩
  · rintro ⟨first, others⟩ u v split ne
    cases u with
    | nil =>
      rw [List.nil_append] at split
      exact split ▸ first
    | cons d u => exact others u v (List.cons.inj split).2 ne

/-- A text spares a part if both halves do, each before what follows it. -/
lemma spared_append {s' : List Char} :
    Spared part (s ++ s') t ↔ Spared part s (s' ++ t) ∧ Spared part s' t := by
  induction s with
  | nil => exact (and_iff_right spared_nil).symm
  | cons c s ih => rw [List.cons_append, spared_cons, ih, spared_cons, List.append_assoc, and_assoc]

/-- A part does not begin in a text that lacks its first character. -/
lemma spared_of_not_mem {c : Char} (absent : c ∉ s) : Spared (c :: part) s t := by
  induction s with
  | nil => exact spared_nil
  | cons d s ih =>
    rw [List.mem_cons, not_or] at absent
    refine spared_cons.mpr ⟨fun pre => absent.1 ?_, ih absent.2⟩
    exact (List.cons_prefix_cons.mp pre).1

/-! ### Replacing a part -/

section

variable {new : List Char}

/-- There is nothing to be replaced in an empty text. -/
lemma replace_nil : replace part new [] = [] := by
  rw [replace]

/-- A character at which the part does not begin stays. -/
lemma replace_cons_of_not {c : Char} (h : ¬ part <+: c :: s) :
    replace part new (c :: s) = c :: replace part new s := by
  rw [replace, if_neg fun found => h (List.isPrefixOf_iff_prefix.mp found.2)]

/-- A part at the beginning is replaced. -/
lemma replace_append_self (ne : part ≠ []) (s : List Char) :
    replace part new (part ++ s) = new ++ replace part new s := by
  obtain ⟨c, rest, rfl⟩ := List.exists_cons_of_ne_nil ne
  have here : (c :: rest).isPrefixOf (c :: (rest ++ s)) :=
    List.isPrefixOf_iff_prefix.mpr (List.prefix_append (c :: rest) s)
  rw [List.cons_append, replace, if_pos ⟨ne, here⟩, ← List.cons_append, List.drop_left]

/-- What a part does not begin in is kept. -/
lemma Spared.replace_append (h : Spared part s t) :
    replace part new (s ++ t) = s ++ replace part new t := by
  induction s with
  | nil => rfl
  | cons c s ih =>
    obtain ⟨first, others⟩ := spared_cons.mp h
    rw [List.cons_append, replace_cons_of_not first, ih others, List.cons_append]

end

/-! ### Splitting at a part -/

/-- What stands between the occurrences of a part, read from the left; an empty part occurs nowhere. -/
def split (part : List Char) : List Char → List (List Char)
  | [] => [[]]
  | c :: rest =>
    if part ≠ [] ∧ part.isPrefixOf (c :: rest) then
      [] :: split part ((c :: rest).drop part.length)
    else (split part rest).modifyHead (c :: ·)
termination_by s => s.length
decreasing_by
  · rename_i h
    have := List.length_pos_iff.mpr h.1
    simp only [List.length_drop, List.length_cons]
    omega
  · simp

/-- An empty text is one empty piece. -/
lemma split_nil : split part [] = [[]] := by
  rw [split]

/-- A text that begins with the part is split there. -/
lemma split_append_self (ne : part ≠ []) (s : List Char) :
    split part (part ++ s) = [] :: split part s := by
  obtain ⟨c, rest, rfl⟩ := List.exists_cons_of_ne_nil ne
  have here : (c :: rest).isPrefixOf (c :: (rest ++ s)) :=
    List.isPrefixOf_iff_prefix.mpr (List.prefix_append (c :: rest) s)
  rw [List.cons_append, split, if_pos ⟨ne, here⟩, ← List.cons_append, List.drop_left]

/-- What the part does not begin in is not split. -/
lemma Spared.split_append (h : Spared part s t) :
    split part (s ++ t) = (split part t).modifyHead (s ++ ·) := by
  induction s with
  | nil => exact (congrFun List.modifyHead_id (split part t)).symm
  | cons c s ih =>
    obtain ⟨first, others⟩ := spared_cons.mp h
    have none_ : ¬ (part ≠ [] ∧ part.isPrefixOf (c :: (s ++ t))) :=
      fun found => first (List.isPrefixOf_iff_prefix.mp found.2)
    rw [List.cons_append, split, if_neg none_, ih others, List.modifyHead_modifyHead]
    rfl

/-- Texts that are joined with a separator are what it splits the whole into, if it begins in none of
them. -/
lemma split_intercalate (ne : part ≠ []) {texts : List (List Char)} (some_ : texts ≠ [])
    (spared : ∀ s ∈ texts, ∀ t, Spared part s t) : split part (part.intercalate texts) = texts := by
  induction texts with
  | nil => exact absurd rfl some_
  | cons s texts ih =>
    obtain ⟨first, others⟩ := List.forall_mem_cons.mp spared
    by_cases last : texts = []
    · have alone := (first []).split_append
      rw [List.append_nil, split_nil] at alone
      rw [last, List.intercalate_singleton, alone, List.modifyHead_cons, List.append_nil]
    · rw [List.intercalate_cons_of_ne_nil last, List.append_assoc, (first _).split_append,
        split_append_self ne, ih last others, List.modifyHead_cons, List.append_nil]

end EntityForge.Text

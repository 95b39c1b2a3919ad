import EntityForge.Placeholder
import EntityForge.Proofs.EntityName
import EntityForge.Proofs.Text.Part
import Mathlib

/-!
# Placeholders filled at once

A template is filled in two passes, of which the second reads what the first has written. Here a
template is divided into its placeholders and the characters around them, and the two passes are
shown to do what one pass over these pieces does. Titles are words that begin with no small letter,
so with the text around them they do not make up a placeholder.
-/

namespace EntityForge.Placeholder

open Text

/-- The forms of a name that a template can ask for. -/
inductive Form
  | title
  | slug
  deriving DecidableEq, Repr

/-- The placeholder of a form. -/
def Form.mark : Form → List Char
  | title => Placeholder.mark "name"
  | slug => Placeholder.mark "name-lower"

/-- A name in the form that is asked for. -/
def Form.spelling (name : EntityName) : Form → List Char
  | title => name.title.toList
  | slug => name.slug.toList

/-- What stands for each form after the first pass: titles are filled in, slugs are not. -/
def Form.titled (name : EntityName) : Form → List Char :=
  Function.update mark title name.title.toList

/-- A piece of a template. -/
inductive Piece
  | plain (c : Char)
  | placeholder (form : Form)
  deriving DecidableEq, Repr

/-- The text of a piece, with a text for each placeholder. -/
def Piece.text (f : Form → List Char) : Piece → List Char
  | plain c => [c]
  | placeholder form => f form

/-- The text of all pieces. -/
def render (f : Form → List Char) (ps : List Piece) : List Char :=
  ps.flatMap (Piece.text f)

/-- The form whose placeholder a text begins with. -/
def form? (s : List Char) : Option Form :=
  [Form.title, Form.slug].find? (·.mark.isPrefixOf s)

/-- No mark is empty. -/
lemma Form.length_mark_pos (form : Form) : 0 < form.mark.length := by
  cases form <;> decide

/-- Divides a template into its pieces, reading it once from the left. -/
def pieces : List Char → List Piece
  | [] => []
  | c :: rest =>
    match form? (c :: rest) with
    | some form => .placeholder form :: pieces ((c :: rest).drop form.mark.length)
    | none => .plain c :: pieces rest
termination_by s => s.length
decreasing_by
  · have := form.length_mark_pos
    simp only [List.length_drop, List.length_cons]
    omega
  · simp

/-! ### Marks -/

section

variable {f : Form → List Char} {form form' : Form} {s t u v : List Char}

/-- A rendering begins with that of the first piece. -/
lemma render_cons (p : Piece) (ps : List Piece) : render f (p :: ps) = p.text f ++ render f ps :=
  rfl

/-- Pieces are rendered one after the other. -/
lemma render_append (ps qs : List Piece) : render f (ps ++ qs) = render f ps ++ render f qs :=
  List.flatMap_append

/-- Where a form is found its mark stands. -/
lemma prefix_of_form? (h : form? s = some form) : form.mark <+: s :=
  List.isPrefixOf_iff_prefix.mp (by simpa using List.find?_some h)

/-- Where no form is found no mark stands. -/
lemma not_prefix_of_form? (h : form? s = none) (form : Form) : ¬ form.mark <+: s := by
  have all := List.find?_eq_none.mp h form (by cases form <;> decide)
  rwa [List.isPrefixOf_iff_prefix] at all

/-- No character of a mark can begin a title. -/
lemma forall_mem_mark (form : Form) : ∀ c ∈ form.mark, c.isLower ∨ ¬ IsWordChar c := by
  have all : form.mark.all fun c => c.isLower || !decide (IsWordChar c) := by
    cases form <;> decide +kernel
  simpa using all

/-- Every mark begins with a brace. -/
lemma exists_mark_eq (form : Form) : ∃ rest, form.mark = '\x7b' :: rest := by
  cases form <;> exact ⟨_, rfl⟩

/-- A mark and a later part of a mark, or of the other one, differ in a place that both have. -/
private lemma not_prefix_drop (form form' : Form) {i : ℕ} (inside : i < form.mark.length)
    (other : i ≠ 0 ∨ form ≠ form') :
    ¬ form'.mark <+: form.mark.drop i ∧ ¬ form.mark.drop i <+: form'.mark := by
  revert i
  cases form <;> cases form' <;> decide

/-- A mark that begins in a mark is the same one. -/
lemma eq_of_prefix (split : form.mark = u ++ v) (ne : v ≠ []) (pre : form'.mark <+: v ++ t) :
    u = [] ∧ form = form' := by
  have drop : form.mark.drop u.length = v := by rw [split, List.drop_left]
  have inside : u.length < form.mark.length := by
    rw [split, List.length_append]
    exact Nat.lt_add_of_pos_right (List.length_pos_iff.mpr ne)
  by_contra other
  have apart := not_prefix_drop form form' inside (by
    rw [or_iff_not_imp_left, not_not, List.length_eq_zero_iff]
    exact fun empty same => other ⟨empty, same⟩)
  rw [drop] at apart
  exact (List.prefix_or_prefix_of_prefix pre (List.prefix_append v t)).elim apart.1 apart.2

/-- Two placeholders in a text are the same one, or one ends before the other begins. -/
lemma disjoint_marks {before before' after after' : List Char}
    (here : s = before ++ (form.mark ++ after)) (there : s = before' ++ (form'.mark ++ after'))
    (le : before.length ≤ before'.length) :
    (before = before' ∧ form = form') ∨ before.length + form.mark.length ≤ before'.length := by
  refine or_iff_not_imp_right.mpr fun overlap => ?_
  obtain ⟨u, rfl⟩ : before <+: before' :=
    List.prefix_of_prefix_length_le ⟨_, here.symm⟩ ⟨_, there.symm⟩ le
  rw [here, List.append_assoc, List.append_cancel_left_eq] at there
  rw [List.length_append, Nat.add_le_add_iff_left, Nat.not_le] at overlap
  obtain ⟨v, split⟩ : u <+: form.mark :=
    List.prefix_of_prefix_length_le ⟨_, there.symm⟩ ⟨_, rfl⟩ overlap.le
  rw [← split, List.append_assoc, List.append_cancel_left_eq] at there
  have ne : v ≠ [] := by
    rintro rfl
    rw [← split, List.append_nil] at overlap
    exact lt_irrefl _ overlap
  obtain ⟨rfl, same⟩ := eq_of_prefix split.symm ne ⟨after', there.symm⟩
  exact ⟨(List.append_nil before).symm, same⟩

/-! ### Occurrences -/

/-- Whether each placeholder is still there or has become a word that begins with no small letter.
-/
def Keeps (f : Form → List Char) : Prop :=
  ∀ form : Form, f form = form.mark ∨
    (∃ c rest, f form = c :: rest ∧ c.isLower = false) ∧ ∀ c ∈ f form, IsWordChar c

/-- Every placeholder is still there if none was replaced. -/
lemma keeps_mark : Keeps Form.mark :=
  fun _ => .inl rfl

/-- The placeholders for the title have become words, the others are still there. -/
lemma keeps_titled {name : EntityName} (word : Schema.IsWord name.source) :
    Keeps (Form.titled name) := by
  intro form
  cases form with
  | slug => exact .inl rfl
  | title =>
    refine .inr ⟨?_, EntityName.forall_isWordChar_title word⟩
    obtain ⟨c, rest, split, -⟩ := word.exists_cons
    obtain ⟨d, more, upper_, capital⟩ := exists_head_upper c
    refine ⟨d, more ++ rest.flatMap lower, ?_, capital⟩
    rw [Form.titled, Function.update_self, EntityName.title, String.toList_ofList, split,
      capitalize, upper_, List.cons_append]

/-- A mark that begins in the text for a placeholder is this placeholder, still there. -/
lemma Keeps.eq_of_prefix (h : Keeps f) (split : f form = u ++ v) (ne : v ≠ [])
    (pre : form'.mark <+: v ++ t) : u = [] ∧ form = form' ∧ f form = form.mark := by
  obtain kept | ⟨-, word⟩ := h form
  · obtain ⟨empty, same⟩ := Placeholder.eq_of_prefix (kept ▸ split) ne pre
    exact ⟨empty, same, kept⟩
  · obtain ⟨c, v, rfl⟩ := List.exists_cons_of_ne_nil ne
    obtain ⟨rest, e⟩ := exists_mark_eq form'
    rw [e, List.cons_append, List.cons_prefix_cons] at pre
    rw [split] at word
    refine absurd (word c (by simp)) ?_
    rw [← pre.1]
    decide

/-- What consists of characters of marks and begins the text of the pieces begins the template
itself: it runs into no title. -/
lemma Keeps.prefix_of_prefix (h : Keeps f) (outer : ∀ c ∈ u, c.isLower ∨ ¬ IsWordChar c)
    (pre : u <+: render f (pieces t)) : u <+: t := by
  fun_induction pieces t generalizing u with
  | case1 => exact pre
  | case2 c rest form read ih =>
    obtain ⟨behind, e⟩ := prefix_of_form? read
    rw [← e, List.drop_left] at ih pre
    rw [← e]
    rw [render_cons] at pre
    -- A placeholder that is still there is in the template too; a title stops what is read.
    obtain kept | ⟨⟨d, word, split, capital⟩, all⟩ := h form
    · rw [Piece.text, kept] at pre
      obtain short | ⟨u, rfl⟩ :=
        List.prefix_or_prefix_of_prefix pre (List.prefix_append form.mark _)
      · exact short.trans (List.prefix_append form.mark behind)
      · rw [List.prefix_append_right_inj] at pre ⊢
        exact ih (fun c mem => outer c (List.mem_append_right _ mem)) pre
    · cases u with
      | nil => exact List.nil_prefix
      | cons c u =>
        rw [Piece.text, split, List.cons_append, List.cons_prefix_cons] at pre
        obtain ⟨rfl, -⟩ := pre
        obtain small | strange := outer c List.mem_cons_self
        · exact absurd small (by simp [capital])
        · exact absurd (all c (split ▸ List.mem_cons_self)) strange
  | case3 c rest _ ih =>
    cases u with
    | nil => exact List.nil_prefix
    | cons d u =>
      rw [render_cons, Piece.text, List.singleton_append, List.cons_prefix_cons] at pre
      rw [List.cons_prefix_cons]
      exact ⟨pre.1, ih (fun c mem => outer c (List.mem_cons_of_mem d mem)) pre.2⟩

/-- Where no placeholder begins in a template, none begins in the text of its pieces. -/
lemma Keeps.not_prefix (h : Keeps f) {c : Char} (read : form? (c :: s) = none) (form : Form) :
    ¬ form.mark <+: c :: render f (pieces s) := by
  intro pre
  obtain ⟨rest, e⟩ := exists_mark_eq form
  refine not_prefix_of_form? read form ?_
  have outer := forall_mem_mark form
  rw [e] at pre outer ⊢
  rw [List.cons_prefix_cons] at pre ⊢
  exact ⟨pre.1, h.prefix_of_prefix (fun c mem => outer c (List.mem_cons_of_mem _ mem)) pre.2⟩

/-- The occurrences of a mark are the placeholders that are still there. -/
lemma Keeps.occurrence_iff (h : Keeps f) {before after : List Char} :
    render f (pieces t) = before ++ (form.mark ++ after) ↔
      f form = form.mark ∧ ∃ qs rs, pieces t = qs ++ .placeholder form :: rs ∧
        render f qs = before ∧ render f rs = after := by
  constructor
  · intro e
    fun_induction pieces t generalizing before with
    | case1 =>
      have empty := (List.append_eq_nil_iff.mp e.symm).2
      exact absurd (List.append_eq_nil_iff.mp empty).1 (List.length_pos_iff.mp form.length_mark_pos)
    | case2 c rest form' read ih =>
      rw [render_cons, Piece.text] at e
      -- The mark begins behind this placeholder or in its text; there it is this placeholder.
      obtain ⟨later, rfl, inner⟩ | ⟨v, split, inner⟩ := List.append_eq_append_iff.mp e
      · obtain ⟨kept, qs, rs, split, rfl, behind⟩ := ih inner
        exact ⟨kept, _ :: qs, rs, congrArg (_ :: ·) split, rfl, behind⟩
      · by_cases empty : v = []
        · subst empty
          obtain ⟨kept, qs, rs, further, front, behind⟩ := @ih [] inner.symm
          refine ⟨kept, _ :: qs, rs, congrArg (_ :: ·) further, ?_, behind⟩
          rw [render_cons, Piece.text, split, front, List.append_nil, List.append_nil]
        · obtain ⟨rfl, rfl, kept⟩ := h.eq_of_prefix split empty ⟨after, inner⟩
          refine ⟨kept, [], _, rfl, rfl, ?_⟩
          rw [List.nil_append] at split
          rwa [← split, kept, List.append_cancel_left_eq, eq_comm] at inner
    | case3 c rest read ih =>
      cases before with
      | nil => exact absurd ⟨after, e.symm⟩ (h.not_prefix read form)
      | cons d before =>
        obtain ⟨rfl, inner⟩ := List.cons.inj e
        obtain ⟨kept, qs, rs, split, front, behind⟩ := ih inner
        exact ⟨kept, _ :: qs, rs, congrArg (_ :: ·) split, congrArg (c :: ·) front, behind⟩
  · rintro ⟨kept, qs, rs, split, rfl, rfl⟩
    rw [split, render_append, render_cons, Piece.text, kept]

/-- To replace a mark is to put something else for this placeholder. -/
lemma Keeps.replace_render (h : Keeps f) (form : Form) (kept : f form = form.mark)
    (new t : List Char) :
    replace form.mark new (render f (pieces t)) =
      render (Function.update f form new) (pieces t) := by
  fun_induction pieces t with
  | case1 => exact replace_nil
  | case2 c rest form' read ih =>
    rw [render_cons, render_cons, Piece.text, Piece.text, ← ih]
    by_cases same : form' = form
    · subst same
      rw [kept, Function.update_self]
      exact replace_append_self (List.length_pos_iff.mp form'.length_mark_pos) _
    · rw [Function.update_of_ne same]
      have spared : Spared form.mark (f form')
          (render f (pieces ((c :: rest).drop form'.mark.length))) :=
        fun u v split ne pre => same (h.eq_of_prefix split ne pre).2.1
      exact spared.replace_append
  | case3 c rest read ih =>
    rw [render_cons, render_cons, Piece.text, Piece.text, ← ih]
    exact replace_cons_of_not (h.not_prefix read form)

end

/-- The pieces of a template make it up. -/
lemma render_pieces (t : List Char) : render Form.mark (pieces t) = t := by
  fun_induction pieces t with
  | case1 => rfl
  | case2 c rest form read ih =>
    rw [render_cons, ih, Piece.text]
    exact (List.prefix_iff_eq_append.mp (prefix_of_form? read))
  | case3 c rest _ ih =>
    rw [render_cons, ih]
    rfl

/-- The first pass fills in the titles. -/
lemma replace_title (name : EntityName) (template : List Char) :
    replace Form.title.mark name.title.toList template =
      render (Form.titled name) (pieces template) := by
  have first := keeps_mark.replace_render .title rfl name.title.toList template
  rwa [render_pieces] at first

/-- The two passes fill in all forms. -/
lemma toList_fill {name : EntityName} (word : Schema.IsWord name.source) (template : String) :
    (fill template name).toList = render (Form.spelling name) (pieces template.toList) := by
  have both : Function.update (Form.titled name) .slug name.slug.toList = Form.spelling name := by
    funext form
    cases form <;> rfl
  have second := (keeps_titled word).replace_render .slug rfl name.slug.toList template.toList
  rw [fill, String.toList_ofList]
  rw [← replace_title, both] at second
  exact second

/-- A template is filled as if all placeholders were replaced at once. It consists of its
placeholders and single characters; each occurrence of a mark is one of these placeholders, so that
no two overlap; and in the result the placeholders have become the title and the slug, with all the
rest as it was. The text between the passes has the marks for the slug that the template has, and no
others. -/
theorem fill_at_once (template : String) (name : EntityName) (word : Schema.IsWord name.source) :
    render Form.mark (pieces template.toList) = template.toList ∧
    (fill template name).toList = render (Form.spelling name) (pieces template.toList) ∧
    (∀ (form : Form) (before after : List Char),
      template.toList = before ++ (form.mark ++ after) ↔
        ∃ qs rs, pieces template.toList = qs ++ .placeholder form :: rs ∧
          render Form.mark qs = before ∧ render Form.mark rs = after) ∧
    (∀ (form form' : Form) (before before' after after' : List Char),
      template.toList = before ++ (form.mark ++ after) →
      template.toList = before' ++ (form'.mark ++ after') → before.length ≤ before'.length →
      (before = before' ∧ form = form') ∨ before.length + form.mark.length ≤ before'.length) ∧
    ∀ before after : List Char,
      replace Form.title.mark name.title.toList template.toList =
          before ++ (Form.slug.mark ++ after) ↔
        ∃ qs rs, pieces template.toList = qs ++ .placeholder .slug :: rs ∧
          render (Form.titled name) qs = before ∧ render (Form.titled name) rs = after := by
  refine ⟨render_pieces _, toList_fill word template, fun form before after => ?_,
    fun _ _ _ _ _ _ here there le => disjoint_marks here there le, fun before after => ?_⟩
  · conv_lhs => rw [← render_pieces template.toList]
    rw [keeps_mark.occurrence_iff]
    exact and_iff_right rfl
  · rw [replace_title, (keeps_titled word).occurrence_iff]
    exact and_iff_right rfl

/-- Braces around a placeholder are kept. With the slug they can make up a placeholder for the
title, which is not filled in any more. -/
theorem fill_at_once_name :
    Schema.IsWord "name" ∧
      (fill "\x7b\x7b\x7b\x7bname-lower\x7d\x7d\x7d\x7d: \x7b\x7bname\x7d\x7d" ⟨"name"⟩).toList =
        render (Form.spelling ⟨"name"⟩)
          (pieces "\x7b\x7b\x7b\x7bname-lower\x7d\x7d\x7d\x7d: \x7b\x7bname\x7d\x7d".toList) ∧
      fill "\x7b\x7b\x7b\x7bname-lower\x7d\x7d\x7d\x7d: \x7b\x7bname\x7d\x7d" ⟨"name"⟩ =
        "\x7b\x7bname\x7d\x7d: Name" := by
  have word : Schema.IsWord "name" := by decide +kernel
  exact ⟨word, (fill_at_once _ ⟨"name"⟩ word).2.1, by decide +kernel⟩

end EntityForge.Placeholder

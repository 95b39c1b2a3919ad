import EntityForge.Proofs.Template.Render
import EntityForge.Proofs.Text.Line
import Mathlib

/-!
# Rendered lines

A line of a template becomes one line of the output if neither its texts nor the values that are put
into it have line feeds. What it begins with is often enough to tell it from other lines.
-/

namespace EntityForge.Template

open Text (IsWhole)

variable {template : String} {context : Context}

/-- Each line of the output comes from a line of the template. -/
lemma exists_of_mem_renderLines {lines : List Line} {number : Nat} {ss : List String}
    (render : renderLines template context number lines = .ok ss) :
    ∀ s ∈ ss, ∃ line ∈ lines, ∃ n, Line.render template context n line = .ok s := by
  induction lines generalizing number ss with
  | nil =>
    cases render
    exact nofun
  | cons line lines ih =>
    obtain ⟨s, more, first, others, rfl⟩ := exists_of_renderLines_cons template render
    refine List.forall_mem_cons.mpr ⟨⟨line, List.mem_cons_self, number, first⟩, fun s mem => ?_⟩
    obtain ⟨line, here, rendered⟩ := ih others s mem
    exact ⟨line, List.mem_cons_of_mem _ here, rendered⟩

/-- A text of a line is written as it is. -/
lemma Line.exists_of_render_text {t : String} {rest : Line} {number : Nat} {s : String}
    (render : Line.render template context number (.text t :: rest) = .ok s) :
    ∃ after, Line.render template context number rest = .ok after ∧ s = t ++ after := by
  rw [Line.render] at render
  cases others : Line.render template context number rest with
  | error e =>
    rw [others] at render
    cases render
  | ok after =>
    rw [others] at render
    cases render
    exact ⟨after, rfl, rfl⟩

/-- A name in a line stands for a value, which is written. -/
lemma Line.exists_of_render_value {name : String} {rest : Line} {number : Nat} {s : String}
    (render : Line.render template context number (.value name :: rest) = .ok s) :
    ∃ v after, context.lookup name = some v ∧
      Line.render template context number rest = .ok after ∧ s = v.shown ++ after := by
  rw [Line.render, valueOf] at render
  cases found : context.lookup name with
  | none =>
    rw [found] at render
    cases render
  | some v =>
    cases others : Line.render template context number rest with
    | error e =>
      rw [found, others] at render
      cases render
    | ok after =>
      rw [found, others] at render
      cases render
      exact ⟨v, after, rfl, rfl, rfl⟩

/-! ### Lines told apart -/

/-- Whether a line begins with a text that a given line does not begin with. -/
def Line.differs (target : String) : Line → Bool
  | .text t :: _ => !t.toList.isPrefixOf target.toList
  | [] => target != ""
  | .value _ :: _ => false

/-- A line that begins otherwise is not the given one. -/
lemma Line.Begins.ne {s target : String} {line : Line} (begins : Line.Begins s line)
    (differs : Line.differs target line) : s ≠ target := by
  rintro rfl
  cases line with
  | nil =>
    rw [show s = "" from begins] at differs
    cases differs
  | cons segment line =>
    cases segment with
    | value name => cases differs
    | text t =>
      have front : t.toList.isPrefixOf s.toList := List.isPrefixOf_iff_prefix.mpr begins
      rw [Line.differs, front] at differs
      cases differs

/-- A line is not in the output if all lines of the template begin otherwise. -/
lemma ComesFrom.not_mem {lines : List Line} {ss : List String} (comes : ComesFrom lines ss)
    {target : String} (differ : ∀ line ∈ lines, Line.differs target line) : target ∉ ss := by
  intro mem
  obtain ⟨line, here, begins⟩ := comes target mem
  exact begins.ne (differ line here) rfl

/-! ### Whole lines -/

/-- Whether the texts of a line have no line feed, and one of them ends the line. -/
def Line.closes : Line → Bool
  | [] => true
  | [.text t] => t ≠ "" && IsWhole t.toList
  | [.value _] => false
  | .text t :: segment :: rest => !t.toList.contains '\n' && Line.closes (segment :: rest)
  | .value _ :: segment :: rest => Line.closes (segment :: rest)

/-- A line becomes one line if it is closed and no value that is put into it has line feeds. -/
lemma Line.isWhole_of_render {line : Line} (closes : line.closes)
    (clean : ∀ name ∈ Line.names line, ∀ v, context.lookup name = some v → '\n' ∉ v.shown.toList)
    {number : Nat} {s : String} (render : Line.render template context number line = .ok s) :
    IsWhole s.toList ∧ (line ≠ [] → s.toList ≠ []) := by
  fun_induction Line.closes line generalizing s with
  | case1 =>
    cases render
    exact ⟨by decide, fun ne => absurd rfl ne⟩
  | case2 t =>
    obtain ⟨after, others, rfl⟩ := Line.exists_of_render_text render
    cases others
    rw [Bool.and_eq_true, decide_eq_true_iff, decide_eq_true_iff] at closes
    rw [String.append_empty]
    exact ⟨closes.2, fun _ empty => closes.1 (String.toList_eq_nil_iff.mp empty)⟩
  | case3 => cases closes
  | case4 t segment rest ih =>
    obtain ⟨after, others, rfl⟩ := Line.exists_of_render_text render
    rw [Bool.and_eq_true, Bool.not_eq_true', List.contains_eq_mem, decide_eq_false_iff_not]
      at closes
    obtain ⟨whole, ne⟩ := ih closes.2 clean others
    rw [String.toList_append]
    exact ⟨.append closes.1 (ne (List.cons_ne_nil _ _)) whole,
      fun _ => List.append_ne_nil_of_right_ne_nil _ (ne (List.cons_ne_nil _ _))⟩
  | case5 name segment rest ih =>
    obtain ⟨v, after, found, others, rfl⟩ := Line.exists_of_render_value render
    obtain ⟨here, clean⟩ := List.forall_mem_cons.mp clean
    obtain ⟨whole, ne⟩ := ih closes clean others
    rw [String.toList_append]
    exact ⟨.append (here v found) (ne (List.cons_ne_nil _ _)) whole,
      fun _ => List.append_ne_nil_of_right_ne_nil _ (ne (List.cons_ne_nil _ _))⟩

/-- Lines become lines. -/
lemma isWhole_of_mem_renderLines {lines : List Line} (closes : ∀ line ∈ lines, Line.closes line)
    (clean : ∀ name ∈ lines.flatMap Line.names, ∀ v, context.lookup name = some v →
      '\n' ∉ v.shown.toList) {number : Nat} {ss : List String}
    (render : renderLines template context number lines = .ok ss) :
    ∀ s ∈ ss, IsWhole s.toList := by
  intro s mem
  obtain ⟨line, here, n, rendered⟩ := exists_of_mem_renderLines render s mem
  exact (Line.isWhole_of_render (closes line here)
    (fun name asked => clean name (List.mem_flatMap_of_mem here asked)) rendered).1

end EntityForge.Template

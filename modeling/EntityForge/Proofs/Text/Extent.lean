import EntityForge.Text.Lexeme
import Mathlib

/-!
# How far runs and literals reach

Both are settled by their own bytes and the byte after them: a run ends before the first byte that
fails its test, a literal with the first quote that no backslash takes.
-/

namespace EntityForge.Text

/-- A run ends before the first byte that fails its test, or with the text. -/
lemma runLength_append_iff {p : UInt8 → Bool} {part rest : List UInt8} :
    runLength p (part ++ rest) = part.length ↔
      (∀ b ∈ part, p b) ∧ ∀ z, rest.head? = some z → p z = false := by
  induction part with
  | nil =>
    cases rest with
    | nil => simp [runLength]
    | cons z rest => cases hz : p z <;> simp [runLength, hz]
  | cons b part ih =>
    cases hb : p b
    · simp [runLength, hb]
    · rw [runLength] at ih
      simp [runLength, hb, ih]

/-- A run is no longer than the text. -/
lemma runLength_le (p : UInt8 → Bool) (rest : List UInt8) : runLength p rest ≤ rest.length :=
  (List.takeWhile_sublist p).length_le

/-! ### Literals -/

/-- What can stand between the quotes of a literal: the quote itself only after a backslash, which
takes the next byte with it. -/
def LiteralBody (quote : UInt8) : List UInt8 → Prop
  | [] => True
  | [b] => b ≠ 0x5C ∧ b ≠ quote
  | b :: c :: rest =>
    if b = 0x5C then LiteralBody quote rest else b ≠ quote ∧ LiteralBody quote (c :: rest)

/-- A literal ends with its quote. -/
lemma getLast?_literal (quote : UInt8) (body : List UInt8) :
    (quote :: (body ++ [quote])).getLast? = some quote := by
  rw [← List.cons_append, List.getLast?_concat]

/-! What ends with a certain byte behind the body of a literal, by its first bytes. -/

section

variable {quote x b c : UInt8} {rest : List UInt8}

/-- A single byte is the last one, and no body is before it. -/
lemma exists_body_singleton : (∃ body, [b] = body ++ [x] ∧ LiteralBody quote body) ↔ b = x := by
  constructor
  · rintro ⟨body, e, -⟩
    cases body with
    | nil => exact List.singleton_inj.mp e
    | cons c body => cases body <;> cases e
  · rintro rfl
    exact ⟨[], rfl, trivial⟩

/-- A backslash takes the next byte with it. -/
lemma exists_body_escape : (∃ body, 0x5C :: c :: rest = body ++ [x] ∧ LiteralBody quote body) ↔
    ∃ body, rest = body ++ [x] ∧ LiteralBody quote body := by
  constructor
  · rintro ⟨body, e, inside⟩
    match body with
    | [] => cases e
    | [b] =>
      cases e
      exact absurd rfl inside.1
    | b :: d :: body =>
      cases e
      exact ⟨body, rfl, by simpa [LiteralBody] using inside⟩
  · rintro ⟨body, rfl, inside⟩
    exact ⟨0x5C :: c :: body, rfl, by simpa [LiteralBody] using inside⟩

/-- A byte that is no backslash belongs to the body if it is not the quote. -/
lemma exists_body_cons (escape : b ≠ 0x5C) :
    (∃ body, b :: c :: rest = body ++ [x] ∧ LiteralBody quote body) ↔
      b ≠ quote ∧ ∃ body, c :: rest = body ++ [x] ∧ LiteralBody quote body := by
  constructor
  · rintro ⟨body, e, inside⟩
    match body with
    | [] => cases e
    | [d] =>
      cases e
      exact ⟨inside.2, [], rfl, trivial⟩
    | d :: f :: body =>
      cases e
      rw [LiteralBody, if_neg escape] at inside
      exact ⟨inside.1, _ :: body, rfl, inside.2⟩
  · rintro ⟨close, body, e, inside⟩
    refine ⟨b :: body, by rw [e]; rfl, ?_⟩
    cases body with
    | nil => exact ⟨escape, close⟩
    | cons d body =>
      rw [LiteralBody, if_neg escape]
      exact ⟨close, inside⟩

end

/-- A literal that has begun is not over before its next byte. -/
private lemma quotedLength_pos (quote z : UInt8) (rest : List UInt8) :
    0 < quotedLength quote (z :: rest) := by
  cases rest with
  | nil => exact Nat.one_pos
  | cons c rest =>
    rw [quotedLength]
    split_ifs <;> omega

/-- A literal ends with the first quote that no backslash takes. -/
lemma quotedLength_eq_iff {quote : UInt8} (hq : quote ≠ 0x5C) {part rest : List UInt8}
    {z : UInt8} :
    quotedLength quote (part ++ z :: rest) = part.length ↔
      ∃ body, part = body ++ [quote] ∧ LiteralBody quote body := by
  have pos := quotedLength_pos quote z rest
  fun_induction LiteralBody quote part with
  | case1 => simpa using pos.ne'
  | case2 b =>
    rw [exists_body_singleton]
    simp only [List.cons_append, List.nil_append, quotedLength, List.length_singleton]
    split_ifs with escape close
    · subst escape
      exact iff_of_false (by omega) hq.symm
    · exact iff_of_true rfl close
    · exact iff_of_false (by omega) close
  | case3 c part ih =>
    rw [exists_body_escape]
    simp only [List.cons_append, quotedLength, List.length_cons, if_true]
    exact Iff.trans (by omega) ih
  | case4 b c part escape ih =>
    rw [exists_body_cons escape]
    simp only [List.cons_append, quotedLength, List.length_cons, escape, if_false] at ih ⊢
    split_ifs with close
    · exact iff_of_false (by omega) fun inside => inside.1 close
    · rw [and_iff_right close]
      exact Iff.trans (by omega) ih

/-- A literal reaches to the end of a text if its quote comes last, or not at all; then the last byte
may be a backslash that has nothing to take. -/
lemma quotedLength_eq_length {quote : UInt8} {part : List UInt8} :
    quotedLength quote part = part.length ↔
      (∃ body, part = body ++ [quote] ∧ LiteralBody quote body) ∨ LiteralBody quote part ∨
        ∃ init, part = init ++ [0x5C] ∧ LiteralBody quote init := by
  fun_induction LiteralBody quote part with
  | case1 => exact iff_of_true rfl (.inr (.inl trivial))
  | case2 b =>
    rw [exists_body_singleton, exists_body_singleton]
    refine iff_of_true rfl ?_
    tauto
  | case3 c part ih =>
    rw [exists_body_escape, exists_body_escape, ← ih]
    simp only [quotedLength, List.length_cons, if_true]
    omega
  | case4 b c part escape ih =>
    rw [exists_body_cons escape, exists_body_cons escape, ← and_or_left, ← and_or_left, ← ih]
    simp only [quotedLength, List.length_cons, escape, if_false]
    split_ifs with close
    · exact iff_of_false (by omega) fun inside => inside.1 close
    · rw [and_iff_right close]
      omega

/-- What can be read as a literal behind its opening quote when certain bytes follow it, or none. -/
lemma quotedLength_append_iff {quote : UInt8} (hq : quote ≠ 0x5C) {part rest : List UInt8} :
    quotedLength quote (part ++ rest) = part.length ↔
      (∃ body, part = body ++ [quote] ∧ LiteralBody quote body) ∨ rest = [] ∧
        (LiteralBody quote part ∨ ∃ init, part = init ++ [0x5C] ∧ LiteralBody quote init) := by
  cases rest with
  | nil => rw [List.append_nil, quotedLength_eq_length, eq_self_iff_true, true_and]
  | cons z rest => simp [quotedLength_eq_iff hq]

/-- A literal is no longer than the text. -/
lemma quotedLength_le (quote : UInt8) (rest : List UInt8) :
    quotedLength quote rest ≤ rest.length := by
  fun_induction quotedLength quote rest with
  | case1 => exact Nat.le_refl 0
  | case2 => exact Nat.le_refl 1
  | case3 c rest ih => simp only [List.length_cons]; omega
  | case4 => simp only [List.length_cons]; omega
  | case5 b c rest _ _ ih => simp only [List.length_cons] at ih ⊢; omega

end EntityForge.Text

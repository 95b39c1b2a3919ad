import EntityForge.Field.Token
import Mathlib

/-!
# Closed tokens

A text is closed if everything that it opens is closed at its end, and white space and comments of
it stand where something is open. Such a text is read as one token, whatever white space follows.
Conversely all tokens of a line are closed, except that the last one may leave something open.
-/

namespace EntityForge.Field

open Text

/-! ### Reading character by character -/

namespace Mode

/-- What is open behind a text. -/
def run (mode : Mode) (s : List Char) : Mode :=
  s.foldl step mode

/-- Whether white space and comments of a text stand where something is open. -/
def Holds (mode : Mode) : List Char → Prop
  | [] => True
  | c :: s =>
    (mode = .code 0 → isBlank c = false ∧ startsComment (c :: s) = false) ∧ (mode.step c).Holds s

/-- White space and comments can be looked for character by character. -/
instance Holds.decidable (mode : Mode) (s : List Char) : Decidable (mode.Holds s) :=
  match s with
  | [] => isTrue trivial
  | c :: s => @instDecidableAnd _ _ inferInstance (Holds.decidable (mode.step c) s)

/-- Where nothing is read the mode stays. -/
@[simp]
lemma run_nil (mode : Mode) : mode.run [] = mode := rfl

/-- A text is read character by character. -/
@[simp]
lemma run_cons (mode : Mode) (c : Char) (s : List Char) :
    mode.run (c :: s) = (mode.step c).run s := rfl

/-- A text is read before what follows it. -/
lemma run_append (mode : Mode) (s t : List Char) : mode.run (s ++ t) = (mode.run s).run t :=
  List.foldl_append

/-- White space differs from all that is not white. -/
lemma ne_of_isBlank {c d : Char} (blank : isBlank c) (solid : isBlank d = false) : c ≠ d := by
  rintro rfl
  rw [solid] at blank
  cases blank

/-- White space outside strings opens nothing and closes nothing. -/
lemma step_of_blank {c : Char} (blank : isBlank c) (depth : Nat) :
    (code depth).step c = code depth := by
  have other (d : Char) (solid : isBlank d = false) : c ≠ d := ne_of_isBlank blank solid
  rw [step, if_neg (other '"' (by decide)),
    if_neg (not_or.mpr ⟨other '(' (by decide), other '[' (by decide)⟩),
    if_neg (not_or.mpr ⟨other ')' (by decide), other ']' (by decide)⟩)]

/-- Nothing is open before white space that leaves nothing open. -/
lemma eq_of_step_eq {mode : Mode} {c : Char} (blank : isBlank c) (h : mode.step c = .code 0) :
    mode = .code 0 := by
  cases mode with
  | code depth => rwa [step_of_blank blank] at h
  | quoted depth escaped =>
    cases escaped with
    | true => cases h
    | false =>
      rw [step, if_neg (ne_of_isBlank blank (by decide)),
        if_neg (ne_of_isBlank blank (by decide))] at h
      cases h

end Mode

/-- A text on one line that is read as one token. -/
structure IsClosed (s : List Char) : Prop where
  ne_nil : s ≠ []
  oneLine : '\n' ∉ s
  holds : (Mode.code 0).Holds s
  closes : (Mode.code 0).run s = .code 0

/-- Whether a token is closed can be checked by reading it. -/
instance (s : List Char) : Decidable (IsClosed s) :=
  decidable_of_iff (s ≠ [] ∧ '\n' ∉ s ∧ (Mode.code 0).Holds s ∧ (Mode.code 0).run s = .code 0)
    ⟨fun ⟨a, b, c, d⟩ => ⟨a, b, c, d⟩, fun ⟨a, b, c, d⟩ => ⟨a, b, c, d⟩⟩

/-- Whether a text is empty or begins with white space. -/
def Breaks (s : List Char) : Prop :=
  ∀ c, s.head? = some c → isBlank c

/-- A comment starts with two slashes. -/
lemma startsComment_iff {s : List Char} :
    startsComment s = true ↔ ∃ rest, s = '/' :: '/' :: rest := by
  constructor
  · intro h
    unfold startsComment at h
    split at h
    · exact ⟨_, rfl⟩
    · cases h
  · rintro ⟨rest, rfl⟩
    rfl

/-- What begins no comment does not if it breaks off earlier. -/
lemma startsComment_of_append {s rest : List Char} (h : startsComment (s ++ rest) = false) :
    startsComment s = false := by
  by_contra comment
  obtain ⟨more, rfl⟩ := startsComment_iff.mp (Bool.not_eq_false _ ▸ comment)
  cases h

/-- White space completes no comment. -/
lemma startsComment_append {s rest : List Char} (ne : s ≠ []) (h : startsComment s = false)
    (breaks : Breaks rest) : startsComment (s ++ rest) = false := by
  by_contra comment
  obtain ⟨more, split⟩ := startsComment_iff.mp (Bool.not_eq_false _ ▸ comment)
  match s with
  | [c] =>
    obtain ⟨-, rfl⟩ := List.cons.inj split
    have blank : isBlank '/' := breaks '/' rfl
    exact absurd blank (by decide)
  | c :: d :: s =>
    cases split
    cases h

namespace IsClosed

variable {s rest : List Char}

/-- A closed text begins with what is neither white space nor a comment. -/
lemma exists_cons (h : IsClosed s) : ∃ c t, s = c :: t ∧ isBlank c = false ∧
    startsComment s = false ∧ ((Mode.code 0).step c).Holds t ∧
      ((Mode.code 0).step c).run t = .code 0 := by
  obtain ⟨c, t, rfl⟩ := List.exists_cons_of_ne_nil h.ne_nil
  obtain ⟨here, holds⟩ := h.holds
  obtain ⟨solid, plain⟩ := here rfl
  exact ⟨c, t, rfl, solid, plain, holds, h.closes⟩

/-- A closed text does not end with white space. -/
lemma isBlank_of_getLast? (h : IsClosed s) {c : Char} (last : s.getLast? = some c) :
    isBlank c = false := by
  obtain ⟨init, rfl⟩ := List.getLast?_eq_some_iff.mp last
  have held : ∀ {mode : Mode} {init : List Char}, mode.Holds (init ++ [c]) →
      (mode.run init).Holds [c] := by
    intro mode init holds
    induction init generalizing mode with
    | nil => exact holds
    | cons d init ih => exact ih holds.2
  by_contra blank
  have blank : isBlank c := Bool.not_eq_false _ ▸ blank
  have closes := h.closes
  rw [Mode.run_append] at closes
  obtain ⟨solid, -⟩ := (held h.holds).1 (Mode.eq_of_step_eq blank closes)
  rw [blank] at solid
  cases solid

end IsClosed

/-- A text that is read as one token at the end of a line, where it may leave something open. -/
structure IsFinal (s : List Char) : Prop where
  ne_nil : s ≠ []
  oneLine : '\n' ∉ s
  holds : (Mode.code 0).Holds s
  solid : ∀ c, s.getLast? = some c → isBlank c = false

/-- A closed token can be the last one. -/
lemma IsClosed.isFinal {s : List Char} (h : IsClosed s) : IsFinal s :=
  ⟨h.ne_nil, h.oneLine, h.holds, fun _ last => h.isBlank_of_getLast? last⟩

/-! ### Reading tokens -/

/-- A token does not end before a character that it holds. -/
lemma Mode.Holds.splits_append {mode : Mode} {c : Char} {s rest : List Char}
    (holds : mode.Holds (c :: s)) (breaks : Breaks rest) :
    mode.splits (c :: (s ++ rest)) = false := by
  by_cases bare : mode = .code 0
  · obtain ⟨solid, plain⟩ := holds.1 bare
    have plain := startsComment_append (List.cons_ne_nil c s) plain breaks
    rw [List.cons_append] at plain
    simp [Mode.splits, solid, plain]
  · simp [Mode.splits, bare]

/-- What is left of a closed text is read to its end. -/
lemma readToken_append {mode : Mode} {s rest : List Char} (holds : mode.Holds s)
    (closes : mode.run s = .code 0) (breaks : Breaks rest) :
    readToken mode (s ++ rest) = (s, rest) := by
  induction s generalizing mode with
  | nil =>
    rw [Mode.run_nil] at closes
    cases rest with
    | nil => rfl
    | cons c rest =>
      have splits : mode.splits (c :: rest) := by simp [Mode.splits, closes, breaks c rfl]
      rw [List.nil_append, readToken, if_pos splits]
  | cons c s ih =>
    rw [List.cons_append, readToken, holds.splits_append breaks, ih holds.2 closes]
    rfl

/-- At the end of a line a text is read to its end, whatever it leaves open. -/
lemma readToken_of_holds {mode : Mode} {s : List Char} (holds : mode.Holds s) :
    readToken mode s = (s, []) := by
  induction s generalizing mode with
  | nil => rfl
  | cons c s ih =>
    have nothing : Breaks [] := nofun
    have whole := holds.splits_append nothing
    rw [List.append_nil] at whole
    rw [readToken, whole, ih holds.2]
    rfl

/-- What is read of a token and what is left make up the text. -/
lemma readToken_fst_append (mode : Mode) (s : List Char) :
    (readToken mode s).1 ++ (readToken mode s).2 = s := by
  induction s generalizing mode with
  | nil => rfl
  | cons c s ih =>
    rw [readToken]
    split_ifs
    · rfl
    · exact congrArg (c :: ·) (ih _)

/-- A token is read only as far as it holds white space and comments. -/
lemma holds_readToken (mode : Mode) (s : List Char) : mode.Holds (readToken mode s).1 := by
  induction s generalizing mode with
  | nil => trivial
  | cons c s ih =>
    rw [readToken]
    split_ifs with splits
    · trivial
    · refine ⟨?_, ih _⟩
      rintro rfl
      simp only [Mode.splits, decide_true, Bool.true_and, Bool.or_eq_true, not_or,
        Bool.not_eq_true] at splits
      have plain := splits.2
      rw [← readToken_fst_append ((Mode.code 0).step c) s, ← List.cons_append] at plain
      exact ⟨splits.1, startsComment_of_append plain⟩

/-- A token that ends before the line does leaves nothing open. -/
lemma run_readToken {mode : Mode} {s : List Char} (more : (readToken mode s).2 ≠ []) :
    mode.run (readToken mode s).1 = .code 0 := by
  induction s generalizing mode with
  | nil => exact absurd rfl more
  | cons c s ih =>
    rw [readToken] at more ⊢
    split_ifs at more ⊢ with splits
    · exact of_decide_eq_true (Bool.and_eq_true_iff.mp splits).1
    · exact ih more

/-- How the tokens of a line begin. -/
lemma tokens_eq (line : List Char) : tokens line =
    match line.dropWhile isBlank with
    | [] => []
    | c :: rest =>
      if startsComment (c :: rest) then []
      else
        (c :: (readToken ((Mode.code 0).step c) rest).1) ::
          tokens (readToken ((Mode.code 0).step c) rest).2 := by
  rw [tokens]
  split <;> rename_i here <;> simp only [here]

/-- White space before a token is not read. -/
lemma tokens_append_of_blank {gap : List Char} (blank : ∀ c ∈ gap, isBlank c) (s : List Char) :
    tokens (gap ++ s) = tokens s := by
  rw [tokens_eq, tokens_eq s, List.dropWhile_append_of_pos blank]

/-- An empty line has no tokens. -/
lemma tokens_nil : tokens [] = [] := by
  rw [tokens_eq]
  rfl

/-- A comment has no tokens. -/
lemma tokens_comment (s : List Char) : tokens ('/' :: '/' :: s) = [] := by
  rw [tokens_eq, List.dropWhile_cons_of_neg (by decide)]
  rfl

/-- A closed text is a token. -/
lemma IsClosed.tokens_append {s rest : List Char} (h : IsClosed s) (breaks : Breaks rest) :
    tokens (s ++ rest) = s :: tokens rest := by
  obtain ⟨c, t, rfl, solid, plain, holds, closes⟩ := h.exists_cons
  have plain := startsComment_append h.ne_nil plain breaks
  have read := readToken_append holds closes breaks
  rw [List.cons_append] at plain ⊢
  rw [tokens_eq, List.dropWhile_cons_of_neg (by simp [solid])]
  simp only [plain, read]
  rfl

/-- A text at the end of a line is one token. -/
lemma IsFinal.tokens_eq {s : List Char} (h : IsFinal s) : tokens s = [s] := by
  obtain ⟨c, t, rfl⟩ := List.exists_cons_of_ne_nil h.ne_nil
  obtain ⟨here, holds⟩ := h.holds
  obtain ⟨solid, plain⟩ := here rfl
  rw [Field.tokens_eq, List.dropWhile_cons_of_neg (by simp [solid])]
  simp only [plain, readToken_of_holds holds, tokens_nil]
  rfl

/-- A line without tokens, or with a first one behind white space; that one leaves something open only
if the line ends with it. -/
lemma tokens_cases (line : List Char) : tokens line = [] ∨ ∃ gap token after,
    line = gap ++ (token ++ after) ∧ (∀ c ∈ gap, isBlank c) ∧ tokens line = token :: tokens after ∧
      token ≠ [] ∧ (Mode.code 0).Holds token ∧
        (after ≠ [] → (Mode.code 0).run token = .code 0) := by
  rw [Field.tokens_eq]
  cases dropped : line.dropWhile isBlank with
  | nil => exact .inl rfl
  | cons c rest =>
    dsimp only
    split_ifs with comment
    · exact .inl rfl
    · have solid : isBlank c = false := by
        have first := List.head_dropWhile_not isBlank (dropped ▸ List.cons_ne_nil c rest)
        simpa only [dropped, List.head_cons] using first
      have plain : startsComment (c :: rest) = false := Bool.not_eq_true _ ▸ comment
      have split := readToken_fst_append ((Mode.code 0).step c) rest
      refine .inr ⟨line.takeWhile isBlank, c :: (readToken ((Mode.code 0).step c) rest).1,
        (readToken ((Mode.code 0).step c) rest).2, ?_, fun d mem => List.mem_takeWhile_imp mem, rfl,
        List.cons_ne_nil _ _, ⟨fun _ => ⟨solid, ?_⟩, holds_readToken _ _⟩, run_readToken⟩
      · rw [List.cons_append, split, ← dropped, List.takeWhile_append_dropWhile]
      · rw [← split, ← List.cons_append] at plain
        exact startsComment_of_append plain

/-- The tokens of a line that does not end with white space can all stand at the end of a line, and
only the last one may leave something open. -/
lemma forall_mem_tokens {line : List Char} (oneLine : '\n' ∉ line)
    (solid : ∀ c, line.getLast? = some c → isBlank c = false) :
    (∀ t ∈ tokens line, IsFinal t) ∧ ∀ t ∈ (tokens line).dropLast, IsClosed t := by
  obtain none | ⟨gap, token, after, text, -, read, ne, holds, closes⟩ := tokens_cases line
  · rw [none]
    exact ⟨nofun, nofun⟩
  · have shorter : after.length < line.length := by
      have size := congrArg List.length text
      have pos := List.length_pos_iff.mpr ne
      simp only [List.length_append] at size
      omega
    rw [text, List.mem_append, List.mem_append, not_or, not_or] at oneLine
    obtain ⟨-, here, later⟩ := oneLine
    rw [read]
    by_cases last : after = []
    · subst last
      have final : IsFinal token := by
        refine ⟨ne, here, holds, fun c ends => solid c ?_⟩
        rw [text, List.append_nil, List.getLast?_append_of_ne_nil _ ne]
        exact ends
      rw [tokens_nil]
      exact ⟨List.forall_mem_singleton.mpr final, nofun⟩
    · have closed : IsClosed token := ⟨ne, here, holds, closes last⟩
      obtain ⟨finals, others⟩ := forall_mem_tokens later fun c ends => solid c (by
        rw [text, ← List.append_assoc, List.getLast?_append_of_ne_nil _ last]
        exact ends)
      refine ⟨List.forall_mem_cons.mpr ⟨closed.isFinal, finals⟩, ?_⟩
      cases more : tokens after with
      | nil => exact nofun
      | cons t ts =>
        rw [more] at others
        exact List.forall_mem_cons.mpr ⟨closed, others⟩
termination_by line.length

end EntityForge.Field

import EntityForge.Proofs.Field.Token
import Mathlib

/-!
# What the tokens of a line leave out

The tokens of a line are all of it but white space and a comment. `Partition` says how a line is put
together from tokens, gaps between them and a rest without tokens, and each line is put together in
one way only.
-/

namespace EntityForge.Field

open Text

/-! ### Where a token ends -/

namespace Mode

/-- White space outside brackets and strings leaves nothing open. -/
lemma run_of_blank {gap : List Char} (blank : ∀ c ∈ gap, isBlank c) :
    (code 0).run gap = code 0 := by
  induction gap with
  | nil => rfl
  | cons c gap ih =>
    obtain ⟨first, others⟩ := List.forall_mem_cons.mp blank
    rw [run_cons, step_of_blank first, ih others]

/-- A slash closes nothing. -/
lemma eq_of_step_slash {mode : Mode} (h : mode.step '/' = code 0) : mode = code 0 := by
  cases mode with
  | code depth => exact h
  | quoted depth escaped => cases escaped <;> cases h

end Mode

/-- A text is read to its end as what is left of a token if a token can end there; a comment behind
it must not begin with a slash of the text. -/
lemma readToken_of_splits {mode : Mode} {s rest : List Char} (holds : mode.Holds s)
    (splits : (mode.run s).splits rest) (slash : startsComment rest → s.getLast? ≠ some '/') :
    readToken mode (s ++ rest) = (s, rest) := by
  induction s generalizing mode with
  | nil =>
    cases rest with
    | nil => rfl
    | cons c rest => exact if_pos splits
  | cons c s ih =>
    have goesOn : mode.splits (c :: (s ++ rest)) = false := by
      by_cases bare : mode = .code 0
      · obtain ⟨solid, plain⟩ := holds.1 bare
        have noComment : startsComment (c :: (s ++ rest)) = false := by
          by_contra comment
          obtain ⟨more, split⟩ := startsComment_iff.mp (Bool.not_eq_false _ ▸ comment)
          cases s with
          | cons d s =>
            cases split
            cases plain
          | nil =>
            -- The slash would be the last character of the token, right before another one.
            obtain ⟨rfl, rfl⟩ := List.cons.inj split
            have nothing : (Mode.code 0).step '/' = .code 0 := rfl
            rw [Mode.run_cons, Mode.run_nil, bare, nothing] at splits
            have next : startsComment ('/' :: more) := by
              simpa [Mode.splits, show isBlank '/' = false by decide] using splits
            exact slash next rfl
        simp [Mode.splits, solid, noComment]
      · simp [Mode.splits, bare]
    have shorter : startsComment rest → s.getLast? ≠ some '/' := by
      intro comment last
      refine slash comment ?_
      rw [List.getLast?_cons, last]
      rfl
    rw [List.cons_append, readToken, goesOn, ih holds.2 splits shorter]
    rfl

/-- Where the reading of a token stops, a token can end. -/
lemma splits_readToken (mode : Mode) (s : List Char) :
    (mode.run (readToken mode s).1).splits (readToken mode s).2 := by
  induction s generalizing mode with
  | nil => rfl
  | cons c s ih =>
    rw [readToken]
    split_ifs with splits
    · exact splits
    · exact ih _

/-- A comment behind a token begins with the first of its slashes. -/
lemma getLast?_readToken {mode : Mode} {s : List Char}
    (comment : startsComment (readToken mode s).2) :
    (readToken mode s).1.getLast? ≠ some '/' := by
  induction s generalizing mode with
  | nil => cases comment
  | cons c s ih =>
    rw [readToken] at comment ⊢
    split_ifs at comment ⊢ with splits
    · exact (Option.some_ne_none _).symm
    · have later := ih comment
      have ends := splits_readToken (mode.step c) s
      have text := readToken_fst_append (mode.step c) s
      generalize readToken (mode.step c) s = read at comment later ends text ⊢
      obtain ⟨token, after⟩ := read
      cases token with
      | cons d token => rwa [List.getLast?_cons_cons]
      | nil =>
        intro last
        obtain rfl : c = '/' := Option.some.inj last
        obtain rfl : after = s := text
        obtain ⟨more, rfl⟩ := startsComment_iff.mp comment
        -- Nothing is open before the slash either, so the token ends there already.
        have bare : mode.step '/' = .code 0 := of_decide_eq_true (Bool.and_eq_true_iff.mp ends).1
        rw [Mode.eq_of_step_slash bare] at splits
        exact splits rfl

/-- What is read from outside brackets and strings on is a token, if it is anything. -/
lemma tokens_of_readToken {s token after : List Char} (read : readToken (.code 0) s = (token, after))
    (ne : token ≠ []) : tokens s = token :: tokens after := by
  cases s with
  | nil =>
    cases read
    exact absurd rfl ne
  | cons c s =>
    rw [readToken] at read
    split_ifs at read with splits
    · cases read
      exact absurd rfl ne
    · obtain ⟨rfl, rfl⟩ := Prod.mk.inj read
      obtain ⟨solid, plain⟩ : isBlank c = false ∧ startsComment (c :: s) = false := by
        simpa [Mode.splits] using splits
      rw [Field.tokens_eq, List.dropWhile_cons_of_neg (by simp [solid])]
      simp only [plain]
      rfl

/-! ### Lines without tokens -/

/-- Whether a text is white space, or a comment behind white space. -/
def IsRemnant (s : List Char) : Prop :=
  (∀ c ∈ s, isBlank c) ∨ ∃ gap comment, (∀ c ∈ gap, isBlank c) ∧ s = gap ++ '/' :: '/' :: comment

/-- White space and comments have no tokens. -/
lemma IsRemnant.tokens_eq {s : List Char} (h : IsRemnant s) : tokens s = [] := by
  obtain blank | ⟨gap, comment, blank, rfl⟩ := h
  · rw [← List.append_nil s, tokens_append_of_blank blank, tokens_nil]
  · rw [tokens_append_of_blank blank, tokens_comment]

/-- A remnant begins with white space or a comment, so a token can end before it. -/
lemma IsRemnant.splits {s : List Char} (h : IsRemnant s) : (Mode.code 0).splits s := by
  cases s with
  | nil => rfl
  | cons c s =>
    have begins : isBlank c ∨ startsComment (c :: s) := by
      obtain blank | ⟨gap, comment, blank, split⟩ := h
      · exact .inl (blank c List.mem_cons_self)
      · cases gap with
        | nil => exact .inr (split ▸ rfl)
        | cons d gap =>
          cases split
          exact .inl (blank c List.mem_cons_self)
    simpa [Mode.splits] using begins

/-- A line is white space and a comment, or has a first token. Of what is behind the token nothing
belongs to it. -/
lemma tokens_inv (line : List Char) :
    (IsRemnant line ∧ tokens line = []) ∨ ∃ gap token after,
      line = gap ++ (token ++ after) ∧ (∀ c ∈ gap, isBlank c) ∧
        tokens line = token :: tokens after ∧ token ≠ [] ∧ (Mode.code 0).Holds token ∧
          ((Mode.code 0).run token).splits after ∧
            (startsComment after → token.getLast? ≠ some '/') := by
  have front : ∀ c ∈ line.takeWhile isBlank, isBlank c := fun c mem => List.mem_takeWhile_imp mem
  have text := List.takeWhile_append_dropWhile (p := isBlank) (l := line)
  cases dropped : line.dropWhile isBlank with
  | nil =>
    rw [dropped, List.append_nil] at text
    have remnant : IsRemnant line := .inl (text ▸ front)
    exact .inl ⟨remnant, remnant.tokens_eq⟩
  | cons c rest =>
    rw [dropped] at text
    by_cases comment : startsComment (c :: rest)
    · obtain ⟨more, split⟩ := startsComment_iff.mp comment
      have remnant : IsRemnant line := .inr ⟨_, more, front, by rw [← split, text]⟩
      exact .inl ⟨remnant, remnant.tokens_eq⟩
    · have solid : isBlank c = false := by
        have first := List.head_dropWhile_not isBlank (dropped ▸ List.cons_ne_nil c rest)
        simpa only [dropped, List.head_cons] using first
      have ne : (readToken (.code 0) (c :: rest)).1 ≠ [] := by
        rw [readToken, if_neg (by simp [Mode.splits, solid, comment])]
        exact List.cons_ne_nil _ _
      refine .inr ⟨line.takeWhile isBlank, _, _, ?_, front, ?_, ne, holds_readToken (.code 0) _,
        splits_readToken (.code 0) _, getLast?_readToken⟩
      · rw [readToken_fst_append, text]
      · conv_lhs => rw [← text, tokens_append_of_blank front]
        exact tokens_of_readToken rfl ne

/-! ### Lines with tokens -/

/-- How a line is put together: tokens with a gap before each of them, and a rest behind the last
one. -/
structure Partition (line : List Char) (gaps ts : List (List Char)) (rest : List Char) : Prop where
  text : line = (List.zipWith (· ++ ·) gaps ts).flatten ++ rest
  size : gaps.length = ts.length
  blank : ∀ gap ∈ gaps, ∀ c ∈ gap, isBlank c
  /-- Only the first token needs no white space before it. -/
  apart : ∀ gap ∈ gaps.tail, gap ≠ []
  ne_nil : ∀ t ∈ ts, t ≠ []
  holds : ∀ t ∈ ts, (Mode.code 0).Holds t
  closes : ∀ t ∈ ts.dropLast, (Mode.code 0).run t = .code 0
  remnant : IsRemnant rest
  /-- Brackets and strings before the rest are closed. -/
  outside : rest ≠ [] → (Mode.code 0).run (List.zipWith (· ++ ·) gaps ts).flatten = .code 0
  /-- A comment right behind the last token begins with the first of its slashes. -/
  slash : startsComment rest → ∀ t ∈ ts.getLast?, t.getLast? ≠ some '/'

section

variable {line gap t after rest : List Char} {gaps ts : List (List Char)}

/-- What follows a first token that leaves nothing open. -/
lemma Partition.tail (h : Partition line (gap :: gaps) (t :: ts) rest) :
    Partition ((List.zipWith (· ++ ·) gaps ts).flatten ++ rest) gaps ts rest where
  text := rfl
  size := Nat.succ.inj h.size
  blank := fun g mem => h.blank g (.tail _ mem)
  apart := fun g mem => h.apart g (List.mem_of_mem_tail mem)
  ne_nil := fun u mem => h.ne_nil u (.tail _ mem)
  holds := fun u mem => h.holds u (.tail _ mem)
  closes := by
    cases ts with
    | nil => exact nofun
    | cons u ts => exact fun v mem => h.closes v (.tail _ mem)
  remnant := h.remnant
  outside := by
    intro more
    have before := h.outside more
    rw [List.zipWith_cons_cons, List.flatten_cons, Mode.run_append, Mode.run_append,
      Mode.run_of_blank (h.blank gap List.mem_cons_self)] at before
    cases ts with
    | nil =>
      rw [List.zipWith_nil_right]
      rfl
    | cons u ts => rwa [h.closes t List.mem_cons_self] at before
  slash := by
    intro comment u mem
    refine h.slash comment u ?_
    cases ts with
    | nil => cases mem
    | cons v ts => rwa [List.getLast?_cons_cons]

/-- A token can end before what follows it. -/
lemma Partition.splits (h : Partition line (gap :: gaps) (t :: ts) rest) :
    ((Mode.code 0).run t).splits ((List.zipWith (· ++ ·) gaps ts).flatten ++ rest) ∧
      (startsComment ((List.zipWith (· ++ ·) gaps ts).flatten ++ rest) →
        t.getLast? ≠ some '/') := by
  cases ts with
  | nil =>
    have here : (List.zipWith (· ++ ·) gaps ([] : List (List Char))).flatten ++ rest = rest := by
      rw [List.zipWith_nil_right]
      rfl
    rw [here]
    refine ⟨?_, fun comment => h.slash comment t rfl⟩
    cases rest with
    | nil => rfl
    | cons c rest =>
      have before := h.outside (List.cons_ne_nil c rest)
      rw [List.zipWith_cons_cons, List.zipWith_nil_right, List.flatten_cons, List.flatten_nil,
        List.append_nil, Mode.run_append, Mode.run_of_blank (h.blank gap List.mem_cons_self)]
        at before
      rw [before]
      exact h.remnant.splits
  | cons u ts =>
    -- The next token has white space before it.
    obtain ⟨gap', gaps', rfl⟩ := List.exists_cons_of_length_eq_add_one (Nat.succ.inj h.size)
    obtain ⟨c, more, rfl⟩ := List.exists_cons_of_ne_nil (h.apart gap' List.mem_cons_self)
    have blank : isBlank c := h.blank (c :: more) (by simp) c List.mem_cons_self
    have text : (List.zipWith (· ++ ·) ((c :: more) :: gaps') (u :: ts)).flatten ++ rest =
        c :: (more ++ u ++ (List.zipWith (· ++ ·) gaps' ts).flatten ++ rest) := by
      simp
    rw [text, h.closes t List.mem_cons_self]
    refine ⟨by simp [Mode.splits, blank], fun comment => ?_⟩
    obtain ⟨_, split⟩ := startsComment_iff.mp comment
    cases (List.cons.inj split).1
    exact absurd blank (by decide)

/-- A line that is put together from tokens is read as these. -/
lemma Partition.tokens_eq (h : Partition line gaps ts rest) : tokens line = ts := by
  induction ts generalizing line gaps with
  | nil =>
    rw [h.text, List.zipWith_nil_right]
    exact h.remnant.tokens_eq
  | cons t ts ih =>
    obtain ⟨gap, gaps, rfl⟩ := List.exists_cons_of_length_eq_add_one h.size
    obtain ⟨splits, slash⟩ := h.splits
    have read := readToken_of_splits (h.holds t List.mem_cons_self) splits slash
    rw [h.text, List.zipWith_cons_cons, List.flatten_cons, List.append_assoc, List.append_assoc,
      tokens_append_of_blank (h.blank gap List.mem_cons_self),
      tokens_of_readToken read (h.ne_nil t List.mem_cons_self), ih h.tail]

/-- A first token before a line that is put together. -/
lemma Partition.cons (blank : ∀ c ∈ gap, isBlank c) (ne : t ≠ []) (holds : (Mode.code 0).Holds t)
    (splits : ((Mode.code 0).run t).splits after)
    (slash : startsComment after → t.getLast? ≠ some '/') (h : Partition after gaps ts rest) :
    Partition (gap ++ (t ++ after)) (gap :: gaps) (t :: ts) rest := by
  -- Something stands behind the token only if it leaves nothing open.
  have closes (more : after ≠ []) : (Mode.code 0).run t = .code 0 := by
    obtain ⟨c, s, rfl⟩ := List.exists_cons_of_ne_nil more
    exact of_decide_eq_true (Bool.and_eq_true_iff.mp splits).1
  have more : rest ≠ [] ∨ ts ≠ [] → after ≠ [] := by
    rintro more rfl
    rw [← h.tokens_eq, tokens_nil] at more
    obtain ⟨-, rfl⟩ := List.append_eq_nil_iff.mp h.text.symm
    exact more.elim (· rfl) (· rfl)
  constructor
  case text => rw [h.text, List.zipWith_cons_cons, List.flatten_cons]; simp
  case size => exact congrArg Nat.succ h.size
  case blank => exact List.forall_mem_cons.mpr ⟨blank, h.blank⟩
  case ne_nil => exact List.forall_mem_cons.mpr ⟨ne, h.ne_nil⟩
  case holds => exact List.forall_mem_cons.mpr ⟨holds, h.holds⟩
  case remnant => exact h.remnant
  case apart =>
    cases gaps with
    | nil => exact List.forall_mem_nil _
    | cons gap' gaps =>
      refine List.forall_mem_cons.mpr ⟨?_, h.apart⟩
      rintro rfl
      obtain ⟨u, us, rfl⟩ := List.exists_cons_of_length_eq_add_one h.size.symm
      obtain ⟨c, s, rfl⟩ := List.exists_cons_of_ne_nil (h.ne_nil u List.mem_cons_self)
      obtain ⟨solid, -⟩ := (h.holds (c :: s) List.mem_cons_self).1 rfl
      obtain ⟨s', text⟩ : ∃ s', after = c :: s' := ⟨_, by rw [h.text]; rfl⟩
      -- Only a comment could follow without white space, but it has no tokens.
      have comment : startsComment (c :: s') := by
        subst text
        rw [closes (List.cons_ne_nil c s')] at splits
        simpa [Mode.splits, solid] using splits
      obtain ⟨s', same⟩ := startsComment_iff.mp comment
      have read := h.tokens_eq
      rw [text, same, tokens_comment] at read
      cases read
  case closes =>
    cases ts with
    | nil => exact List.forall_mem_nil _
    | cons u ts => exact List.forall_mem_cons.mpr ⟨closes (more (.inr (by simp))), h.closes⟩
  case outside =>
    intro some
    rw [List.zipWith_cons_cons, List.flatten_cons, Mode.run_append, Mode.run_append,
      Mode.run_of_blank blank, closes (more (.inl some)), h.outside some]
  case slash =>
    intro comment
    cases ts with
    | nil =>
      rintro u ⟨⟩
      have here := h.text
      rw [List.zipWith_nil_right, List.flatten_nil, List.nil_append] at here
      exact slash (here ▸ comment)
    | cons u ts =>
      rw [List.getLast?_cons_cons]
      exact h.slash comment

/-- Every line is put together from its tokens. -/
lemma exists_partition (line : List Char) :
    ∃ gaps rest, Partition line gaps (tokens line) rest := by
  obtain ⟨remnant, none_⟩ | ⟨gap, token, after, text, blank, read, ne, holds, splits, slash⟩ :=
    tokens_inv line
  · rw [none_]
    exact ⟨[], line, rfl, rfl, nofun, nofun, nofun, nofun, nofun, remnant, fun _ => rfl, nofun⟩
  · have shorter : after.length < line.length := by
      have pos := List.length_pos_iff.mpr ne
      rw [text, List.length_append, List.length_append]
      omega
    obtain ⟨gaps, rest, others⟩ := exists_partition after
    rw [read, text]
    exact ⟨_, _, .cons blank ne holds splits slash others⟩
termination_by line.length

/-- The tokens of a line are those that it is put together from: each but the first has white space
before it, each but the last leaves nothing open, none of them has white space or a comment where
nothing is open, and what is behind them is white space, or a comment where nothing is open. -/
theorem tokens_partition (line : List Char) (ts : List (List Char)) :
    tokens line = ts ↔ ∃ gaps rest, Partition line gaps ts rest := by
  refine ⟨?_, fun ⟨gaps, rest, h⟩ => h.tokens_eq⟩
  rintro rfl
  exact exists_partition line

end

end EntityForge.Field

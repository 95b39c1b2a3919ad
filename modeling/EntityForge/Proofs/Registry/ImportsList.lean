import EntityForge.Proofs.Registry.Token
import EntityForge.Registry.ImportsList
import Mathlib

/-!
# The imports list, as a property of code

`IsFirstList` says which part of the code of a registry is its first imports list, without looking
for it: no `imports:` with a bracket comes earlier, and the brackets of the entries balance.
`find?_eq_some_iff` says that this is the list that is found. What is written before the first list,
or at its end, leaves it the first one.
-/

namespace EntityForge.Registry

open Text

/-- The code of a registry, without its places. -/
def code (document : List Char) : List Piece :=
  (tokens document).map Lexeme.piece

/-- A word of code. -/
def wordPiece (word : List UInt8) : Piece :=
  (.word, word)

/-- A punctuation mark of code. -/
def markPiece (mark : UInt8) : Piece :=
  (.punctuation, [mark])

/-- The bracket that opens a list. -/
abbrev opener : Piece := markPiece 0x5B

/-- The bracket that closes a list. -/
abbrev closer : Piece := markPiece 0x5D

/-- What an imports list begins with. -/
def header : List Piece :=
  [wordPiece (bytesOf "imports"), markPiece 0x3A, opener]

/-- Code in which `depth` brackets more are closed than opened, and never more than that before its
end. -/
def Closes (depth : Nat) (entries : List Piece) : Prop :=
  (∀ part, part <+: entries → part.count closer ≤ depth + part.count opener) ∧
    entries.count closer = depth + entries.count opener

/-- Code in which no imports list begins before the end. -/
def OpensLast (code : List Piece) : Prop :=
  ∀ a b, code = a ++ header ++ b → b = []

/-- The parts that the first imports list of a registry divides its code into. -/
structure IsFirstList (code before entries after : List Piece) : Prop where
  split : code = before ++ header ++ entries ++ closer :: after
  first : OpensLast (before ++ header)
  balanced : Closes 0 entries

/-! ### Tokens and their pieces -/

/-- The code of a registry is what is code of its pieces. -/
lemma code_eq_filter (document : List Char) :
    code document = (pieces next (bytes document)).filter (·.1.isCode) := by
  rw [code, tokens, ← map_piece_lexemes 0, List.filter_map]
  rfl

/-- A token is a word if its piece is. -/
lemma isWord_iff {word : List UInt8} {t : Token} : isWord word t ↔ t.piece = wordPiece word := by
  simp [isWord, Lexeme.piece, wordPiece]

/-- A token is a punctuation mark if its piece is. -/
lemma isMark_iff {mark : UInt8} {t : Token} : isMark mark t ↔ t.piece = markPiece mark := by
  simp [isMark, Lexeme.piece, markPiece]

/-- The two brackets are different pieces. -/
lemma opener_ne_closer : opener ≠ closer := by decide

/-! ### Brackets -/

/-- Nothing closes no brackets. -/
lemma closes_nil {depth : Nat} : Closes depth [] ↔ depth = 0 := by
  constructor
  · intro h
    exact h.2.symm
  · rintro rfl
    refine ⟨?_, rfl⟩
    intro part h
    rw [List.prefix_nil.mp h]
    exact Nat.le_refl 0

/-- A closing bracket needs one that is open. -/
lemma not_closes_zero {entries : List Piece} : ¬ Closes 0 (closer :: entries) := by
  intro h
  have := h.1 [closer] ⟨entries, rfl⟩
  revert this
  decide

/-- What a first piece does to the depth. -/
private lemma closes_cons {depth inner : Nat} {p : Piece} {entries : List Piece}
    (step : depth + [p].count opener = inner + [p].count closer) :
    Closes depth (p :: entries) ↔ Closes inner entries := by
  have each (part : List Piece) : (p :: part).count closer ≤ depth + (p :: part).count opener ↔
      part.count closer ≤ inner + part.count opener := by
    rw [← List.singleton_append, List.count_append, List.count_append]
    omega
  have total : (p :: entries).count closer = depth + (p :: entries).count opener ↔
      entries.count closer = inner + entries.count opener := by
    rw [← List.singleton_append, List.count_append, List.count_append]
    omega
  rw [Closes, Closes, total]
  refine and_congr_left fun _ => ⟨?_, ?_⟩
  · intro all part h
    exact (each part).mp (all _ ((List.prefix_cons_inj p).mpr h))
  · intro all part h
    obtain rfl | ⟨part, rfl, sub⟩ := List.prefix_cons_iff.mp h
    · exact Nat.zero_le _
    · exact (each part).mpr (all part sub)

/-- A closing bracket leaves one bracket less to be closed. -/
lemma closes_closer {depth : Nat} {entries : List Piece} :
    Closes (depth + 1) (closer :: entries) ↔ Closes depth entries :=
  closes_cons (by
    rw [List.count_singleton_self, List.count_singleton, if_neg (by decide)])

/-- An opening bracket leaves one bracket more to be closed. -/
lemma closes_opener {depth : Nat} {entries : List Piece} :
    Closes depth (opener :: entries) ↔ Closes (depth + 1) entries :=
  closes_cons (by
    rw [List.count_singleton_self, List.count_singleton, if_neg (by decide)])

/-- Other pieces neither open nor close brackets. -/
lemma closes_other {depth : Nat} {p : Piece} {entries : List Piece} (hc : p ≠ closer)
    (ho : p ≠ opener) : Closes depth (p :: entries) ↔ Closes depth entries :=
  closes_cons (by
    rw [List.count_singleton, List.count_singleton, if_neg (by simpa using ho),
      if_neg (by simpa using hc)])

/-- Code without brackets can follow code whose brackets balance. -/
lemma Closes.append {depth : Nat} {entries more : List Piece} (h : Closes depth entries)
    (hc : closer ∉ more) (ho : opener ∉ more) : Closes depth (entries ++ more) := by
  have total : (entries ++ more).count closer = depth + (entries ++ more).count opener := by
    rw [List.count_append, List.count_append, List.count_eq_zero.mpr hc,
      List.count_eq_zero.mpr ho, h.2]
    rfl
  refine ⟨?_, total⟩
  rintro part ⟨rest, e⟩
  obtain ⟨back, rfl, -⟩ | ⟨front, rfl, rfl⟩ := List.append_eq_append_iff.mp e
  · exact h.1 part (List.prefix_append part back)
  · have none : closer ∉ front := fun mem => hc (List.mem_append_left rest mem)
    rw [List.count_append, List.count_append, List.count_eq_zero.mpr none, h.2]
    omega

/-- A token that does not close the list is passed over. -/
private lemma closing?_cons_iff {depth inner : Nat} {u t : Token} {ts entries : List Token}
    (step : ∀ entries, Closes depth (u.piece :: entries) ↔ Closes inner entries)
    (goes : ¬ (u.piece = closer ∧ depth = 0))
    (ih : ∀ entries, ImportsList.closing? inner ts = some (entries, t) ↔
      ∃ after, ts = entries ++ t :: after ∧ t.piece = closer ∧
        Closes inner (entries.map Lexeme.piece)) :
    (ImportsList.closing? inner ts).map (fun p => (u :: p.1, p.2)) = some (entries, t) ↔
      ∃ after, u :: ts = entries ++ t :: after ∧ t.piece = closer ∧
        Closes depth (entries.map Lexeme.piece) := by
  constructor
  · intro h
    obtain ⟨⟨found, close⟩, read, e⟩ := Option.map_eq_some_iff.mp h
    cases e
    obtain ⟨after, rfl, close, closes⟩ := (ih found).mp read
    exact ⟨after, rfl, close, (step _).mpr closes⟩
  · rintro ⟨after, e, close, closes⟩
    cases entries with
    | nil =>
      cases e
      exact absurd ⟨close, closes_nil.mp closes⟩ goes
    | cons v entries =>
      cases e
      rw [(ih entries).mpr ⟨after, rfl, close, (step _).mp closes⟩]
      rfl

/-- The bracket that closes a list is the first one that balances what it begins with. -/
lemma closing?_eq_some_iff {depth : Nat} {ts entries : List Token} {t : Token} :
    ImportsList.closing? depth ts = some (entries, t) ↔
      ∃ after, ts = entries ++ t :: after ∧ t.piece = closer ∧
        Closes depth (entries.map Lexeme.piece) := by
  induction ts generalizing depth entries with
  | nil => simp [ImportsList.closing?]
  | cons u ts ih =>
    unfold ImportsList.closing?
    split_ifs with hc ho
    · have hc := isMark_iff.mp hc
      cases depth with
      | zero =>
        constructor
        · intro h
          cases h
          exact ⟨ts, rfl, hc, closes_nil.mpr rfl⟩
        · rintro ⟨after, e, close, closes⟩
          cases entries with
          | nil => cases e; rfl
          | cons v entries =>
            cases e
            rw [List.map_cons, hc] at closes
            exact absurd closes not_closes_zero
      | succ depth =>
        refine closing?_cons_iff (fun entries => ?_) (by simp) fun _ => ih
        rw [hc]
        exact closes_closer
    · have ho := isMark_iff.mp ho
      refine closing?_cons_iff (fun entries => ?_) ?_ fun _ => ih
      · rw [ho]
        exact closes_opener
      · rw [ho]
        exact fun h => absurd h.1 opener_ne_closer
    · have hc : u.piece ≠ closer := fun e => hc (isMark_iff.mpr e)
      have ho : u.piece ≠ opener := fun e => ho (isMark_iff.mpr e)
      exact closing?_cons_iff (fun entries => closes_other hc ho) (fun h => hc h.1) fun _ => ih

/-! ### The opening bracket -/

/-- The header opens a list at its end. -/
lemma opensLast_header : OpensLast header := by
  intro a b e
  have size := congrArg List.length e
  rw [List.length_append, List.length_append] at size
  exact List.length_eq_zero_iff.mp (by omega)

/-- Whether a list begins with a first piece, or later. -/
lemma opensLast_cons {p : Piece} {ps : List Piece} (long : header.length ≤ ps.length) :
    OpensLast (p :: ps) ↔ ¬ header <+: p :: ps ∧ OpensLast ps := by
  constructor
  · intro h
    refine ⟨?_, ?_⟩
    · rintro ⟨rest, e⟩
      obtain rfl := h [] rest e.symm
      have size := congrArg List.length e
      rw [List.append_nil, List.length_cons] at size
      omega
    · intro a b e
      exact h (p :: a) b (by rw [e]; rfl)
  · rintro ⟨here, later⟩ a b e
    cases a with
    | nil => exact absurd ⟨b, e.symm⟩ here
    | cons q a => exact later a b (List.cons.inj e).2

/-- Code without the word `imports` begins no list. -/
lemma opensLast_append {front ps : List Piece} (h : wordPiece (bytesOf "imports") ∉ front) :
    OpensLast (front ++ ps) ↔ OpensLast ps := by
  induction front with
  | nil => rfl
  | cons p front ih =>
    have ih := ih fun mem => h (List.mem_cons_of_mem p mem)
    rw [← ih]
    constructor
    · intro once a b e
      exact once (p :: a) b (by rw [List.cons_append, e]; rfl)
    · intro once a b e
      cases a with
      | nil => exact absurd (List.cons.inj e).1.symm (List.ne_of_not_mem_cons h)
      | cons q a => exact once a b (List.cons.inj e).2

/-- Three tokens that make a header. -/
private lemma isHeader_iff {a b c : Token} :
    (isWord (bytesOf "imports") a && isMark 0x3A b && isMark 0x5B c) = true ↔
      [a, b, c].map Lexeme.piece = header := by
  simp [isWord_iff, isMark_iff, header, and_assoc]

/-- A list opens at the first `imports:` with a bracket. -/
lemma opening?_eq_some_iff {ts rest : List Token} {t : Token} :
    ImportsList.opening? ts = some (t, rest) ↔
      ∃ front a b, ts = front ++ a :: b :: t :: rest ∧
        [a, b, t].map Lexeme.piece = header ∧
        OpensLast ((front ++ [a, b, t]).map Lexeme.piece) := by
  -- In both cases with three tokens these are a prefix of what the list begins with.
  have firstThree {a b c g : Token} {after front more : List Token} {d f : Token}
      (e : a :: b :: c :: after = g :: front ++ d :: f :: t :: more) :
      [a, b, c].map Lexeme.piece <+: (g :: front ++ [d, f, t]).map Lexeme.piece := by
    have start : [a, b, c] <+: a :: b :: c :: after := ⟨after, rfl⟩
    exact (List.prefix_of_prefix_length_le start ⟨more, by rw [e]; simp⟩ (by simp)).map _
  fun_induction ImportsList.opening? ts with
  | case1 a b c after h =>
    have here := isHeader_iff.mp h
    constructor
    · intro e
      cases e
      exact ⟨[], a, b, rfl, here, by rw [List.nil_append, here]; exact opensLast_header⟩
    · rintro ⟨front, d, f, e, found, first⟩
      cases front with
      | nil => cases e; rfl
      | cons g front =>
        have early := firstThree e
        rw [here] at early
        rw [List.cons_append, List.map_cons, opensLast_cons (by simp [header])] at first
        exact absurd early first.1
  | case2 a b c after h ih =>
    have here := mt isHeader_iff.mpr h
    refine ih.trans ?_
    constructor
    · rintro ⟨front, d, f, e, found, first⟩
      refine ⟨a :: front, d, f, by rw [e]; rfl, found, ?_⟩
      rw [List.cons_append, List.map_cons, opensLast_cons (by simp [header])]
      refine ⟨fun early => here ?_, first⟩
      have three := firstThree (g := a) (a := a) (congrArg (a :: ·) e)
      exact (List.prefix_of_prefix_length_le three early (by simp [header])).eq_of_length
        (by simp [header])
    · rintro ⟨front, d, f, e, found, first⟩
      cases front with
      | nil =>
        cases e
        exact absurd found here
      | cons g front =>
        rw [List.cons_append, List.map_cons, opensLast_cons (by simp [header])] at first
        exact ⟨front, d, f, (List.cons.inj e).2, found, first.2⟩
  | case3 ts short =>
    refine iff_of_false (by simp) ?_
    rintro ⟨front, a, b, e, -⟩
    match front with
    | [] => exact short _ _ _ _ e
    | [g] => exact short _ _ _ _ e
    | [g, h] => exact short _ _ _ _ e
    | g :: h :: i :: front => exact short _ _ _ _ e

/-! ### The first list -/

/-- The list that is found is the first imports list. -/
lemma find?_eq_some_iff {document : List Char} {list : ImportsList} :
    ImportsList.find? document = some list ↔
      ∃ front a b after,
        tokens document =
          front ++ a :: b :: list.opening :: (list.entries ++ list.closing :: after) ∧
        IsFirstList (code document) (front.map Lexeme.piece) (list.entries.map Lexeme.piece)
          (after.map Lexeme.piece) := by
  obtain ⟨opening, entries, closing⟩ := list
  rw [ImportsList.find?, ImportsList.ofTokens?]
  constructor
  · intro h
    obtain ⟨⟨opening, rest⟩, opens, h⟩ := Option.bind_eq_some_iff.mp h
    obtain ⟨⟨entries, closing⟩, closes, h⟩ := Option.bind_eq_some_iff.mp h
    cases h
    obtain ⟨front, a, b, e, found, first⟩ := opening?_eq_some_iff.mp opens
    obtain ⟨after, rfl, close, balanced⟩ := closing?_eq_some_iff.mp closes
    refine ⟨front, a, b, after, e, ?_, ?_, balanced⟩
    · rw [code, e, ← found, ← close]
      simp
    · rw [← found, ← List.map_append]
      exact first
  · rintro ⟨front, a, b, after, e, split, first, balanced⟩
    rw [code, e] at split
    have parts : front.map Lexeme.piece ++ ([a, b, opening].map Lexeme.piece ++
        (entries.map Lexeme.piece ++ closing.piece :: after.map Lexeme.piece)) =
        front.map Lexeme.piece ++ (header ++
          (entries.map Lexeme.piece ++ closer :: after.map Lexeme.piece)) := by
      simpa using split
    obtain ⟨found, rest⟩ := List.append_inj (List.append_cancel_left parts) rfl
    have close := (List.cons.inj (List.append_cancel_left rest)).1
    have opens : ImportsList.opening? (tokens document) =
        some (opening, entries ++ closing :: after) := by
      refine opening?_eq_some_iff.mpr ⟨front, a, b, e, found, ?_⟩
      rw [List.map_append, found]
      exact first
    have closes := closing?_eq_some_iff.mpr ⟨after, rfl, close, balanced⟩
    exact Option.bind_eq_some_iff.mpr ⟨_, opens, Option.bind_eq_some_iff.mpr ⟨_, closes, rfl⟩⟩

/-- A list that is found is enclosed in brackets. -/
lemma brackets_of_find? {document : List Char} {list : ImportsList}
    (h : ImportsList.find? document = some list) :
    list.opening.piece = opener ∧ list.closing.piece = closer := by
  obtain ⟨⟨opening, rest⟩, opens, h⟩ := Option.bind_eq_some_iff.mp h
  obtain ⟨⟨entries, closing⟩, closes, h⟩ := Option.bind_eq_some_iff.mp h
  cases h
  obtain ⟨front, a, b, -, found, -⟩ := opening?_eq_some_iff.mp opens
  obtain ⟨after, -, close, -⟩ := closing?_eq_some_iff.mp closes
  exact ⟨(List.cons.inj (List.cons.inj (List.cons.inj found).2).2).1, close⟩

/-- A registry whose code has a first imports list has one that is found. -/
lemma IsFirstList.exists_find? {document : List Char} {before entries after : List Piece}
    (h : IsFirstList (code document) before entries after) :
    ∃ list, ImportsList.find? document = some list ∧ list.entries.map Lexeme.piece = entries := by
  have split := h.split
  rw [code, List.append_assoc, List.append_assoc] at split
  obtain ⟨front, rest, e, hfront, tail⟩ := List.map_eq_append_iff.mp split
  obtain ⟨three, rest, rfl, hthree, tail⟩ := List.map_eq_append_iff.mp tail
  obtain ⟨list, rest, rfl, rfl, last⟩ := List.map_eq_append_iff.mp tail
  obtain ⟨closing, after, rfl, -, rfl⟩ := List.map_eq_cons_iff.mp last
  obtain ⟨a, b, opening, rfl⟩ : ∃ a b opening, three = [a, b, opening] :=
    List.length_eq_three.mp (by simpa [header] using congrArg List.length hthree)
  refine ⟨⟨opening, list, closing⟩, find?_eq_some_iff.mpr ⟨front, a, b, after, ?_, ?_⟩, rfl⟩
  · rw [e]
    rfl
  · rw [hfront]
    exact h

/-- A word stands in a list if it is one of its pieces. -/
lemma hasWord_iff {list : ImportsList} {word : List UInt8} :
    list.hasWord word ↔ wordPiece word ∈ list.entries.map Lexeme.piece := by
  rw [ImportsList.hasWord, List.any_eq_true, List.mem_map]
  exact exists_congr fun t => and_congr_right fun _ => isWord_iff

namespace IsFirstList

variable {code before entries after : List Piece}

/-- What stands before a first list is no longer than what stands before another. -/
private lemma length_le {before' entries' after' : List Piece}
    (h : IsFirstList code before entries after) (h' : IsFirstList code before' entries' after') :
    before'.length ≤ before.length := by
  by_contra longer
  have both := h.split.symm.trans h'.split
  rw [List.append_assoc, List.append_assoc (before' ++ header)] at both
  obtain ⟨rest, e⟩ := List.prefix_of_prefix_length_le ⟨_, both⟩
    (List.prefix_append (before' ++ header) _) (by simp only [List.length_append]; omega)
  have size := congrArg List.length e
  rw [h'.first before rest e.symm] at size
  simp only [List.length_append, List.length_nil] at size
  omega

/-- A list with balanced brackets does not end before another at the same place. -/
private lemma entries_length_le {e₁ a₁ e₂ a₂ : List Piece} (h₁ : Closes 0 e₁) (h₂ : Closes 0 e₂)
    (both : e₁ ++ closer :: a₁ = e₂ ++ closer :: a₂) : e₂.length ≤ e₁.length := by
  by_contra longer
  rw [List.append_cons] at both
  have early := List.prefix_of_prefix_length_le ⟨_, both⟩ (List.prefix_append e₂ _)
    (by simp only [List.length_append, List.length_singleton]; omega)
  have more := h₂.1 _ early
  rw [List.count_append, List.count_append, List.count_singleton_self, h₁.2,
    List.count_eq_zero.mpr (by decide : opener ∉ [closer])] at more
  omega

/-- There is one first list at most. -/
lemma unique {before' entries' after' : List Piece} (h : IsFirstList code before entries after)
    (h' : IsFirstList code before' entries' after') :
    before = before' ∧ entries = entries' ∧ after = after' := by
  have both := h.split.symm.trans h'.split
  rw [List.append_assoc, List.append_assoc, List.append_assoc (before' ++ header),
    List.append_assoc before'] at both
  obtain ⟨rfl, rest⟩ := List.append_inj both (Nat.le_antisymm (h'.length_le h) (h.length_le h'))
  have rest := List.append_cancel_left rest
  have size := Nat.le_antisymm (entries_length_le h'.balanced h.balanced rest.symm)
    (entries_length_le h.balanced h'.balanced rest)
  obtain ⟨rfl, tail⟩ := List.append_inj rest size
  exact ⟨rfl, rfl, (List.cons.inj tail).2⟩

/-- Code without the word `imports` before a registry has no influence on its first list. -/
lemma append_left_iff {front : List Piece} (none : wordPiece (bytesOf "imports") ∉ front) :
    IsFirstList (front ++ code) before entries after ↔
      ∃ rest, before = front ++ rest ∧ IsFirstList code rest entries after := by
  constructor
  · intro h
    have split := h.split
    rw [List.append_assoc, List.append_assoc] at split
    obtain ⟨rest, rfl⟩ : ∃ rest, before = front ++ rest := by
      obtain ⟨rest, rfl, -⟩ | ⟨rest, rfl, e⟩ := List.append_eq_append_iff.mp split
      · exact ⟨rest, rfl⟩
      · cases rest with
        | nil => exact ⟨[], by rw [List.append_nil, List.append_nil]⟩
        | cons p rest =>
          -- The header would begin in what is written before the registry.
          cases (List.cons.inj e).1
          exact absurd (List.mem_append_right before List.mem_cons_self) none
    refine ⟨rest, rfl, ?_, ?_, h.balanced⟩
    · rw [List.append_assoc] at split
      rw [List.append_cancel_left split, List.append_assoc, List.append_assoc]
    · have first := h.first
      rw [List.append_assoc] at first
      exact (opensLast_append none).mp first
  · rintro ⟨rest, rfl, h⟩
    refine ⟨?_, ?_, h.balanced⟩
    · rw [h.split]
      simp
    · rw [List.append_assoc]
      exact (opensLast_append none).mpr h.first

end IsFirstList

end EntityForge.Registry

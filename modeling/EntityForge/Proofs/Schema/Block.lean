import EntityForge.Schema.Block
import Mathlib

/-!
# Walking over the tokens of a schema

What the scanner of a schema does with a token of each kind, outside all blocks and inside one. More
tokens behind those that it has read do not change what it has found.
-/

namespace EntityForge.Schema

open Text

/-! ### Inside a block -/

section

variable {depth : Nat} {t : Token} {rest : List Token}

/-- An opening brace has to be closed first. -/
lemma closing?_opening (opens : t.kind = .opening) :
    closing? depth (t :: rest) = closing? (depth + 1) rest := by
  simp only [closing?, opens]

/-- The closing brace of a block ends it. -/
lemma closing?_closing_zero (closes : t.kind = .closing) :
    closing? 0 (t :: rest) = some (t, rest) := by
  simp only [closing?, closes]

/-- A closing brace closes the block that was opened last. -/
lemma closing?_closing_succ (closes : t.kind = .closing) :
    closing? (depth + 1) (t :: rest) = closing? depth rest := by
  simp only [closing?, closes]

/-- Words neither open nor close blocks. -/
lemma closing?_other (opens : t.kind ≠ .opening) (closes : t.kind ≠ .closing) :
    closing? depth (t :: rest) = closing? depth rest := by
  rw [closing?.eq_def]
  dsimp only
  split
  · exact absurd ‹_› opens
  · exact absurd ‹_› closes
  · exact absurd ‹_› closes
  · rfl

/-- A token that closes no block, outside all of them or inside one, is no closing brace. -/
lemma not_closing (outside : t.kind = .closing → depth = 0 → False)
    (inside : ∀ outer, t.kind = .closing → depth = outer + 1 → False) : t.kind ≠ .closing := by
  intro closes
  cases depth with
  | zero => exact outside closes rfl
  | succ outer => exact inside outer closes rfl

end

/-- What follows a closed block is at the end of what follows its opening brace. -/
lemma suffix_of_closing? {depth : Nat} {ts rest : List Token} {t : Token}
    (h : closing? depth ts = some (t, rest)) : rest <:+ ts := by
  fun_induction closing? depth ts with
  | case1 => cases h
  | case2 depth u ts opens ih => exact (ih h).trans (List.suffix_cons u ts)
  | case3 =>
    cases h
    exact List.suffix_cons _ _
  | case4 u ts depth closes ih => exact (ih h).trans (List.suffix_cons u ts)
  | case5 depth u ts _ _ _ ih => exact (ih h).trans (List.suffix_cons u ts)

/-! ### Outside all blocks -/

/-- A block is a model if the two words before it say so. -/
lemma Block.ofWords?_eq_some {previous last : Option Token} {body : Span} {block : Block} :
    Block.ofWords? previous last body = some block ↔ ∃ keyword name, previous = some keyword ∧
      last = some name ∧ keyword.bytes = bytesOf "model" ∧
        block = ⟨⟨name.start, name.stop⟩, body⟩ := by
  cases previous with
  | none => simp [ofWords?]
  | some keyword =>
    cases last with
    | none => simp [ofWords?]
    | some name => simp [ofWords?, eq_comm]

/-- What is no brace becomes the last of the two words before what follows. -/
lemma blocksAfter_other {previous last : Option Token} {t : Token} {rest : List Token}
    (opens : t.kind ≠ .opening) (closes : t.kind ≠ .closing) :
    blocksAfter previous last (t :: rest) = blocksAfter last (some t) rest := by
  rw [blocksAfter]
  split
  · exact absurd ‹_› opens
  · exact absurd ‹_› closes
  · rfl

/-- A word may be the keyword or the name before a block. -/
lemma blocksAfter_word {previous last : Option Token} {t : Token} {rest : List Token}
    (word : t.kind = .word) :
    blocksAfter previous last (t :: rest) = blocksAfter last (some t) rest := by
  apply blocksAfter_other
  · rw [word]
    decide
  · rw [word]
    decide

/-- Behind a closing brace the scanner begins anew. -/
lemma blocksAfter_closing {previous last : Option Token} {t : Token} {rest : List Token}
    (closes : t.kind = .closing) :
    blocksAfter previous last (t :: rest) = blocksAfter none none rest := by
  rw [blocksAfter]
  simp only [closes]

/-- A block that is not closed hides what follows it. -/
lemma blocksAfter_unclosed {previous last : Option Token} {t : Token} {rest : List Token}
    (opens : t.kind = .opening) (unclosed : closing? 0 rest = none) :
    blocksAfter previous last (t :: rest) = [] := by
  rw [blocksAfter]
  simp only [opens]
  split
  · rfl
  · rename_i closes
    rw [unclosed] at closes
    cases closes

/-- A block that is closed, and what follows it. -/
lemma blocksAfter_opening {previous last : Option Token} {t close : Token}
    {rest after : List Token} (opens : t.kind = .opening)
    (closes : closing? 0 rest = some (close, after)) :
    blocksAfter previous last (t :: rest) =
      (Block.ofWords? previous last ⟨t.stop, close.start⟩).toList ++
        blocksAfter none none after := by
  rw [blocksAfter]
  simp only [opens]
  split
  · rename_i open_
    rw [closes] at open_
    cases open_
  · rename_i closes'
    rw [closes] at closes'
    cases closes'
    rfl

/-! ### More tokens -/

/-- A block that is closed is closed by the same brace when more tokens follow. -/
lemma closing?_append {depth : Nat} {ts after : List Token} {close : Token}
    (h : closing? depth ts = some (close, after)) (us : List Token) :
    closing? depth (ts ++ us) = some (close, after ++ us) := by
  fun_induction closing? depth ts with
  | case1 => cases h
  | case2 depth t rest opens ih =>
    rw [List.cons_append, closing?_opening opens]
    exact ih h
  | case3 t rest closes =>
    cases h
    exact closing?_closing_zero closes
  | case4 t rest depth closes ih =>
    rw [List.cons_append, closing?_closing_succ closes]
    exact ih h
  | case5 depth t rest opens closes closes' ih =>
    rw [List.cons_append, closing?_other opens (not_closing closes closes')]
    exact ih h

/-- Tokens without a closing brace do not close what others have left open. -/
lemma closing?_append_eq_none {depth : Nat} {ts us : List Token} (h : closing? depth ts = none)
    (noClosing : ∀ u ∈ us, u.kind ≠ .closing) : closing? depth (ts ++ us) = none := by
  fun_induction closing? depth ts with
  | case1 depth =>
    rw [List.nil_append]
    fun_induction closing? depth us with
    | case1 => rfl
    | case2 depth u us opens ih => exact ih fun v mem => noClosing v (.tail u mem)
    | case3 u us closes => exact absurd closes (noClosing u List.mem_cons_self)
    | case4 u us depth closes ih => exact absurd closes (noClosing u List.mem_cons_self)
    | case5 depth u us opens closes closes' ih => exact ih fun v mem => noClosing v (.tail u mem)
  | case2 depth t rest opens ih =>
    rw [List.cons_append, closing?_opening opens]
    exact ih h
  | case3 t rest closes => cases h
  | case4 t rest depth closes ih =>
    rw [List.cons_append, closing?_closing_succ closes]
    exact ih h
  | case5 depth t rest opens closes closes' ih =>
    rw [List.cons_append, closing?_other opens (not_closing closes closes')]
    exact ih h

/-- The models among tokens are the first ones when more tokens follow. -/
lemma blocksAfter_isPrefix (previous last : Option Token) (ts us : List Token) :
    blocksAfter previous last ts <+: blocksAfter previous last (ts ++ us) := by
  fun_induction blocksAfter previous last ts with
  | case1 => exact List.nil_prefix
  | case2 => exact List.nil_prefix
  | case3 previous last t rest opens close after closes ih =>
    rw [List.cons_append, blocksAfter_opening opens (closing?_append closes us)]
    exact (List.prefix_append_right_inj _).mpr ih
  | case4 previous last t rest closes ih =>
    rw [List.cons_append, blocksAfter_closing closes]
    exact ih
  | case5 previous last t rest opens closes ih =>
    rw [List.cons_append, blocksAfter_other opens closes]
    exact ih

/-- There is no model among tokens without a closing brace. -/
lemma blocksAfter_eq_nil {previous last : Option Token} {us : List Token}
    (noClosing : ∀ u ∈ us, u.kind ≠ .closing) : blocksAfter previous last us = [] := by
  fun_induction blocksAfter previous last us with
  | case1 => rfl
  | case2 => rfl
  | case3 previous last u rest opens close after closes ih =>
    have unclosed := @closing?_append_eq_none 0 [] rest rfl fun v mem => noClosing v (.tail u mem)
    rw [List.nil_append, closes] at unclosed
    cases unclosed
  | case4 previous last u rest closes ih => exact absurd closes (noClosing u List.mem_cons_self)
  | case5 previous last u rest opens closes ih => exact ih fun v mem => noClosing v (.tail u mem)

/-- Tokens without a closing brace add no model. -/
lemma blocksAfter_append_eq {previous last : Option Token} {ts us : List Token}
    (noClosing : ∀ u ∈ us, u.kind ≠ .closing) :
    blocksAfter previous last (ts ++ us) = blocksAfter previous last ts := by
  fun_induction blocksAfter previous last ts with
  | case1 => exact blocksAfter_eq_nil noClosing
  | case2 previous last t rest opens unclosed =>
    rw [List.cons_append, blocksAfter_unclosed opens (closing?_append_eq_none unclosed noClosing)]
  | case3 previous last t rest opens close after closes ih =>
    rw [List.cons_append, blocksAfter_opening opens (closing?_append closes us), ih]
  | case4 previous last t rest closes ih =>
    rw [List.cons_append, blocksAfter_closing closes, ih]
  | case5 previous last t rest opens closes ih =>
    rw [List.cons_append, blocksAfter_other opens closes, ih]

end EntityForge.Schema

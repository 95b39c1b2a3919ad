import EntityForge.Proofs.Schema.Name
import Mathlib

/-!
# Models among the tokens of a schema

How many blocks are open before a token is settled by the braces before it. A model is where the
word `model`, a name and an opening brace follow each other outside all blocks, and it reaches to
the first brace behind which no block is open. `models_places` says that the models of a schema are
these, whatever else stands in it.
-/

namespace EntityForge.Schema

open Text

/-! ### Open blocks -/

/-- The number of open blocks behind a token. Outside all blocks a closing brace changes nothing. -/
def deepen (depth : Nat) (t : Token) : Nat :=
  match t.kind with
  | .opening => depth + 1
  | .closing => depth - 1
  | _ => depth

/-- The number of open blocks behind tokens. -/
def depthAfter (depth : Nat) (ts : List Token) : Nat :=
  ts.foldl deepen depth

/-- The number of blocks that are open before the token with a number. -/
def depthBefore (ts : List Token) (n : Nat) : Nat :=
  depthAfter 0 (ts.take n)

/-- Whether some block stays open all along tokens. -/
def StaysOpen (depth : Nat) (ts : List Token) : Prop :=
  ∀ front, front <+: ts → depthAfter depth front ≠ 0

/-- The depth after tokens goes on from that after the first one. -/
lemma depthAfter_cons (depth : Nat) (t : Token) (ts : List Token) :
    depthAfter depth (t :: ts) = depthAfter (deepen depth t) ts := rfl

/-- The depth after tokens goes on from that after those before them. -/
lemma depthAfter_append (depth : Nat) (ts us : List Token) :
    depthAfter depth (ts ++ us) = depthAfter (depthAfter depth ts) us :=
  List.foldl_append

/-- An opening brace goes one deeper. -/
lemma deepen_opening {t : Token} (h : t.kind = .opening) (depth : Nat) :
    deepen depth t = depth + 1 := by
  rw [deepen, h]

/-- A closing brace goes up again, but not beyond the top. -/
lemma deepen_closing {t : Token} (h : t.kind = .closing) (depth : Nat) :
    deepen depth t = depth - 1 := by
  rw [deepen, h]

/-- Words stay at their depth. -/
lemma deepen_other {t : Token} (opens : t.kind ≠ .opening) (closes : t.kind ≠ .closing)
    (depth : Nat) : deepen depth t = depth := by
  rw [deepen]
  split
  · exact absurd ‹_› opens
  · exact absurd ‹_› closes
  · rfl

/-- Before the tokens that follow others, what is open is what those have left open. -/
lemma depthBefore_append (ts us : List Token) (n : Nat) :
    depthBefore (ts ++ us) (ts.length + n) = depthAfter (depthAfter 0 ts) (us.take n) := by
  rw [depthBefore, List.take_length_add_append, depthAfter_append]

/-- The depth before a token is that after all tokens in front of it. -/
lemma depthBefore_length (ts us : List Token) :
    depthBefore (ts ++ us) ts.length = depthAfter 0 ts :=
  depthBefore_append ts us 0

/-- An open block stays open as long as nothing comes. -/
lemma staysOpen_nil {depth : Nat} (h : depth ≠ 0) : StaysOpen depth [] := by
  intro front before
  rw [List.prefix_nil.mp before]
  exact h

/-- A block stays open along tokens if it is open before the first one and along the others. -/
lemma StaysOpen.cons {depth : Nat} {t : Token} {ts : List Token} (h : depth ≠ 0)
    (others : StaysOpen (deepen depth t) ts) : StaysOpen depth (t :: ts) := by
  intro front before
  cases front with
  | nil => exact h
  | cons u front =>
    obtain ⟨rfl, rest⟩ := List.cons_prefix_cons.mp before
    exact others front rest

/-- A block that stays open is open in between. -/
lemma StaysOpen.take {depth : Nat} {ts : List Token} (h : StaysOpen depth ts) (n : Nat) :
    depthAfter depth (ts.take n) ≠ 0 :=
  h _ (List.take_prefix n ts)

/-! ### Closing braces -/

/-- Whether some block stays open along tokens and a brace behind them closes it. -/
structure Encloses (depth : Nat) (inside : List Token) (close : Token) : Prop where
  closes : close.kind = .closing
  stays : StaysOpen (depth + 1) inside
  ends : depthAfter (depth + 1) (inside ++ [close]) = 0

/-- A token that leaves the block open can stand before what a brace closes. -/
lemma Encloses.cons {depth inner : Nat} {inside : List Token} {close t : Token}
    (h : Encloses inner inside close) (same : deepen (depth + 1) t = inner + 1) :
    Encloses depth (t :: inside) close where
  closes := h.closes
  stays := .cons (Nat.succ_ne_zero _) (same ▸ h.stays)
  ends := by
    rw [List.cons_append, depthAfter_cons, same]
    exact h.ends

/-- The brace that closes a block is the first one behind which it is not open. -/
lemma exists_inside {depth : Nat} {ts after : List Token} {close : Token}
    (h : closing? depth ts = some (close, after)) :
    ∃ inside, ts = inside ++ close :: after ∧ Encloses depth inside close := by
  fun_induction closing? depth ts with
  | case1 => cases h
  | case2 depth t rest opens ih =>
    obtain ⟨inside, rfl, encloses⟩ := ih h
    exact ⟨t :: inside, rfl, encloses.cons (deepen_opening opens _)⟩
  | case3 t rest closes =>
    cases h
    exact ⟨[], rfl, closes, staysOpen_nil (Nat.succ_ne_zero _), deepen_closing closes 1⟩
  | case4 t rest depth closes ih =>
    obtain ⟨inside, rfl, encloses⟩ := ih h
    exact ⟨t :: inside, rfl, encloses.cons (deepen_closing closes _)⟩
  | case5 depth t rest opens closes closes' ih =>
    obtain ⟨inside, rfl, encloses⟩ := ih h
    have same := deepen_other opens (not_closing closes closes') (depth + 1)
    exact ⟨t :: inside, rfl, encloses.cons same⟩

/-- A block that is not closed stays open to the end. -/
lemma staysOpen_of_closing? {depth : Nat} {ts : List Token} (h : closing? depth ts = none) :
    StaysOpen (depth + 1) ts := by
  fun_induction closing? depth ts with
  | case1 depth => exact staysOpen_nil (Nat.succ_ne_zero _)
  | case2 depth t rest opens ih =>
    apply StaysOpen.cons (Nat.succ_ne_zero _)
    rw [deepen_opening opens]
    exact ih h
  | case3 t rest closes => cases h
  | case4 t rest depth closes ih =>
    apply StaysOpen.cons (Nat.succ_ne_zero _)
    rw [deepen_closing closes]
    exact ih h
  | case5 depth t rest opens closes closes' ih =>
    apply StaysOpen.cons (Nat.succ_ne_zero _)
    rw [deepen_other opens (not_closing closes closes')]
    exact ih h

/-! ### Depths around a block -/

section

variable {front rest : List Token} {t : Token} (outside : depthAfter 0 front = 0)
  (opens : t.kind = .opening)

include outside opens

/-- Behind the opening brace of a block it is that block whose depth counts. -/
lemma depthBefore_opening (n : Nat) :
    depthBefore (front ++ t :: rest) (front.length + (n + 1)) = depthAfter 1 (rest.take n) := by
  rw [depthBefore_append, outside, List.take_succ_cons, depthAfter_cons, deepen_opening opens]

/-- Between the braces of a block there is a block open, and behind them there is none. -/
lemma exists_stop {close : Token} {after : List Token} (h : closing? 0 rest = some (close, after)) :
    ∃ inside, rest = inside ++ close :: after ∧ close.kind = .closing ∧
      (∀ n, front.length < n → n ≤ front.length + 1 + inside.length →
        depthBefore (front ++ t :: rest) n ≠ 0) ∧
      depthAfter 0 (front ++ t :: (inside ++ [close])) = 0 := by
  obtain ⟨inside, split, ⟨closes, stays, ends⟩⟩ := exists_inside h
  refine ⟨inside, split, closes, fun n lt le => ?_, ?_⟩
  · obtain ⟨k, rfl⟩ := Nat.exists_eq_add_of_lt lt
    have within : rest.take k = inside.take k := by
      rw [split, List.take_append_of_le_length (by omega)]
    rw [Nat.add_assoc, depthBefore_opening outside opens, within]
    exact stays.take k
  · rwa [depthAfter_append, outside, depthAfter_cons, deepen_opening opens]

/-- Behind a brace that is never closed there is always a block open. -/
lemma depthBefore_ne_zero (h : closing? 0 rest = none) {n : Nat} (lt : front.length < n) :
    depthBefore (front ++ t :: rest) n ≠ 0 := by
  obtain ⟨k, rfl⟩ := Nat.exists_eq_add_of_lt lt
  rw [Nat.add_assoc, depthBefore_opening outside opens]
  exact (staysOpen_of_closing? h).take k

end

/-! ### Words before a brace -/

/-- The two words right before what follows some tokens, as far as there are words. -/
inductive Window : List Token → Option Token → Option Token → Prop where
  | nil :
    Window [] none none
  | brace {front t} :
    t.kind ≠ .word →
    Window (front ++ [t]) none none
  | word {front previous last t} :
    Window front previous last →
    t.kind = .word →
    Window (front ++ [t]) last (some t)

/-- Two words in the window are the last two tokens. -/
lemma Window.exists_append {front : List Token} {keyword name : Token}
    (h : Window front (some keyword) (some name)) :
    ∃ before, front = before ++ [keyword, name] ∧ keyword.kind = .word ∧ name.kind = .word := by
  cases h with
  | word h isName =>
    cases h with
    | @word before _ _ _ _ isKeyword => exact ⟨before, by simp, isKeyword, isName⟩

/-- The last token is in the window if it is a word. -/
lemma Window.last_eq {front : List Token} {previous last : Option Token} {t : Token}
    (h : Window (front ++ [t]) previous last) (word : t.kind = .word) :
    last = some t ∧ ∃ before, Window front before previous := by
  generalize e : front ++ [t] = whole at h
  cases h with
  | nil => exact absurd e (List.concat_ne_nil t front)
  | brace other =>
    obtain ⟨rfl, same⟩ := List.append_inj' e rfl
    cases same
    exact absurd word other
  | word h _ =>
    obtain ⟨rfl, same⟩ := List.append_inj' e rfl
    cases same
    exact ⟨rfl, _, h⟩

/-! ### Places of models -/

/-- Whether the tokens from one number to another are a model that stands as a block says: the word
`model`, a name and a brace outside all blocks, up to the first brace behind which no block is
open. -/
structure ModelAt (ts : List Token) (first last : Nat) (block : Block) : Prop where
  keyword : ∃ t, ts[first]? = some t ∧ t.kind = .word ∧ t.bytes = bytesOf "model"
  name : ∃ t, ts[first + 1]? = some t ∧ t.kind = .word ∧ block.name = ⟨t.start, t.stop⟩
  opening : ∃ t, ts[first + 2]? = some t ∧ t.kind = .opening ∧ block.body.start = t.stop
  closing : ∃ t, ts[last]? = some t ∧ t.kind = .closing ∧ block.body.stop = t.start
  outside : depthBefore ts (first + 2) = 0
  lt : first + 2 < last
  inside : ∀ n, first + 2 < n → n ≤ last → depthBefore ts n ≠ 0
  closes : depthBefore ts (last + 1) = 0

section

variable {ts front rest : List Token} {t : Token} {first last : Nat} {block : Block}

/-- At a number there is the token that follows as many others. -/
lemma getElem?_of_length {n : Nat} (here : n = front.length) :
    (front ++ t :: rest)[n]? = some t := by
  rw [here, List.getElem?_append_right (Nat.le_refl _), Nat.sub_self]
  rfl

/-- Where a model begins its body, there is a brace, and the words before it say that it is one. -/
lemma ModelAt.exists_words {previous name : Option Token}
    (h : ModelAt (front ++ t :: rest) first last block) (here : first + 2 = front.length)
    (window : Window front previous name) : t.kind = .opening ∧
      ∃ k n, previous = some k ∧ name = some n ∧ k.bytes = bytesOf "model" := by
  obtain ⟨brace, found, opens, -⟩ := h.opening
  rw [getElem?_of_length here] at found
  cases found
  obtain ⟨k, k_at, isWord, model⟩ := h.keyword
  obtain ⟨n, n_at, isName, -⟩ := h.name
  rw [List.getElem?_append_left (by omega)] at k_at n_at
  obtain ⟨front, rfl⟩ : ∃ before, front = before ++ [k] ++ [n] := by
    refine ⟨front.take first, ?_⟩
    have whole := List.take_of_length_le here.ge
    rwa [List.take_add_one, List.take_add_one, k_at, n_at, eq_comm] at whole
  obtain ⟨rfl, before, window⟩ := window.last_eq isName
  obtain ⟨rfl, -⟩ := window.last_eq isWord
  exact ⟨opens, k, n, rfl, rfl, model⟩

/-- The words `model` and a name before a block outside all others make it a model. -/
lemma ModelAt.of_window {keyword name close : Token} {inside after : List Token}
    (window : Window front (some keyword) (some name)) (model : keyword.bytes = bytesOf "model")
    (outside : depthAfter 0 front = 0) (opens : t.kind = .opening) (closes : close.kind = .closing)
    (open_ : ∀ n, front.length < n → n ≤ front.length + 1 + inside.length →
      depthBefore (front ++ t :: (inside ++ close :: after)) n ≠ 0)
    (ends : depthAfter 0 (front ++ t :: (inside ++ [close])) = 0) :
    ModelAt (front ++ t :: (inside ++ close :: after)) (front.length - 2)
      (front.length + 1 + inside.length) ⟨⟨name.start, name.stop⟩, ⟨t.stop, close.start⟩⟩ := by
  obtain ⟨before, rfl, isWord, isName⟩ := window.exists_append
  have size : (before ++ [keyword, name]).length = before.length + 2 := by simp
  rw [size] at open_ ⊢
  have split : before ++ [keyword, name] ++ t :: (inside ++ close :: after) =
      (before ++ [keyword, name] ++ t :: (inside ++ [close])) ++ after := by simp
  constructor
  case keyword => exact ⟨keyword, by simp, isWord, model⟩
  case name => exact ⟨name, by simp, isName, rfl⟩
  case opening => exact ⟨t, getElem?_of_length size.symm, opens, rfl⟩
  case closing =>
    refine ⟨close, ?_, closes, rfl⟩
    rw [List.append_cons, ← List.append_assoc]
    exact getElem?_of_length (by simp; omega)
  case outside =>
    rw [Nat.add_sub_cancel, ← size, depthBefore_length]
    exact outside
  case lt => omega
  case inside => exact fun n lt le => open_ n lt le
  case closes =>
    rw [split, show before.length + 2 + 1 + inside.length + 1 =
      (before ++ [keyword, name] ++ t :: (inside ++ [close])).length by simp; omega,
      depthBefore_length]
    exact ends

/-- The opening brace of a model settles where the model ends. -/
lemma ModelAt.last_eq {other : Nat} {block' : Block} (h : ModelAt ts first last block)
    (h' : ModelAt ts first other block') : last = other := by
  apply Nat.le_antisymm
  · by_contra longer
    exact h.inside (other + 1) (Nat.lt_succ_of_lt h'.lt) (Nat.not_le.mp longer) h'.closes
  · by_contra longer
    exact h'.inside (last + 1) (Nat.lt_succ_of_lt h.lt) (Nat.not_le.mp longer) h.closes

/-- A model that opens behind another one begins behind it. -/
lemma ModelAt.lt_first {first' last' : Nat} {block' : Block} (h : ModelAt ts first last block)
    (h' : ModelAt ts first' last' block') (behind : last < first' + 2) : last < first' := by
  obtain ⟨close, close_at, closes, -⟩ := h.closing
  obtain ⟨k, k_at, isWord, -⟩ := h'.keyword
  obtain ⟨n, n_at, isName, -⟩ := h'.name
  have notKeyword : last ≠ first' := by
    rintro rfl
    cases close_at.symm.trans k_at
    rw [closes] at isWord
    cases isWord
  have notName : last ≠ first' + 1 := by
    rintro rfl
    cases close_at.symm.trans n_at
    rw [closes] at isName
    cases isName
  omega

end

/-! ### All models -/

/-- Blocks are the models that open with the token of a number or behind it, and pairs of numbers
say where they stand. -/
structure Found (ts : List Token) (n : Nat) (places : List (Nat × Nat)) (blocks : List Block) :
    Prop where
  behind : ∀ p ∈ places, n ≤ p.1 + 2
  ordered : places.Pairwise fun p q => p.2 < q.1
  models : List.Forall₂ (fun p block => ModelAt ts p.1 p.2 block) places blocks
  complete : ∀ first last block, ModelAt ts first last block → n ≤ first + 2 →
    (first, last) ∈ places

section

variable {ts : List Token} {n m : Nat} {places : List (Nat × Nat)} {blocks : List Block}

/-- At the places there are models. -/
lemma Found.exists_model (h : Found ts n places blocks) {p : Nat × Nat} (mem : p ∈ places) :
    ∃ block, ModelAt ts p.1 p.2 block := by
  obtain ⟨i, rfl⟩ := List.get_of_mem mem
  obtain ⟨size, each⟩ := List.forall₂_iff_get.mp h.models
  exact ⟨_, each i i.isLt (size ▸ i.isLt)⟩

/-- Where no model opens any more none is to be found. -/
lemma Found.nil (none : ∀ first last block, ModelAt ts first last block → ¬ n ≤ first + 2) :
    Found ts n [] [] where
  behind := by simp
  ordered := .nil
  models := .nil
  complete := fun first last block model le => absurd le (none first last block model)

/-- Where no model opens there is nothing to be found. -/
lemma Found.skip (h : Found ts m places blocks) (le : n ≤ m)
    (none : ∀ first last block, ModelAt ts first last block → n ≤ first + 2 → m ≤ first + 2) :
    Found ts n places blocks where
  behind := fun p mem => le.trans (h.behind p mem)
  ordered := h.ordered
  models := h.models
  complete := fun first last block model le => h.complete first last block model
    (none first last block model le)

/-- No model opens with a token that is no opening brace. -/
lemma Found.step {front rest : List Token} {t : Token} (split : ts = front ++ t :: rest)
    (opens : t.kind ≠ .opening) (h : Found ts (front ++ [t]).length places blocks) :
    Found ts front.length places blocks := by
  apply h.skip (by simp)
  intro first last block model le
  by_contra within
  have here : first + 2 = front.length := by
    simp at within
    omega
  obtain ⟨brace, found, isOpening, -⟩ := model.opening
  rw [split, getElem?_of_length here] at found
  cases found
  exact opens isOpening

/-- Behind a model the others are found. -/
lemma Found.cons {first last : Nat} {block : Block} (model : ModelAt ts first last block)
    (h : Found ts (last + 1) places blocks) :
    Found ts (first + 2) ((first, last) :: places) (block :: blocks) where
  behind := by
    rw [List.forall_mem_cons]
    refine ⟨Nat.le_refl _, fun p mem => ?_⟩
    have lt := model.lt
    have := h.behind p mem
    omega
  ordered := by
    refine .cons (fun p mem => ?_) h.ordered
    obtain ⟨block', model'⟩ := h.exists_model mem
    exact model.lt_first model' (h.behind p mem)
  models := .cons model h.models
  complete := by
    intro first' last' block' model' le
    obtain here | lt := le.eq_or_lt
    · cases Nat.add_right_cancel here
      rw [model.last_eq model']
      exact List.mem_cons_self
    · apply List.mem_cons_of_mem
      apply h.complete first' last' block' model'
      by_contra within
      exact model.inside (first' + 2) lt (by omega) model'.outside

/-- A block is passed as a whole, whether or not it is a model. -/
lemma Found.block {front inside after : List Token} {previous last : Option Token} {t close : Token}
    (window : Window front previous last) (outside : depthAfter 0 front = 0)
    (opens : t.kind = .opening) (closes : close.kind = .closing)
    (open_ : ∀ n, front.length < n → n ≤ front.length + 1 + inside.length →
      depthBefore (front ++ t :: (inside ++ close :: after)) n ≠ 0)
    (ends : depthAfter 0 (front ++ t :: (inside ++ [close])) = 0)
    (h : Found (front ++ t :: (inside ++ close :: after))
      (front ++ t :: (inside ++ [close])).length places blocks) :
    ∃ places, Found (front ++ t :: (inside ++ close :: after)) front.length places
      ((Block.ofWords? previous last ⟨t.stop, close.start⟩).toList ++ blocks) := by
  have size : (front ++ t :: (inside ++ [close])).length = front.length + 1 + inside.length + 1 := by
    simp
    omega
  rw [size] at h
  cases made : Block.ofWords? previous last ⟨t.stop, close.start⟩ with
  | none =>
    refine ⟨places, h.skip (by omega) fun first stop block model le => ?_⟩
    obtain here | lt := le.eq_or_lt
    · obtain ⟨-, keyword, name, rfl, rfl, isModel⟩ := model.exists_words here.symm window
      simp [Block.ofWords?, isModel] at made
    · by_contra within
      exact open_ (first + 2) lt (by omega) model.outside
  | some block =>
    obtain ⟨keyword, name, rfl, rfl, isModel, rfl⟩ := Block.ofWords?_eq_some.mp made
    have model := ModelAt.of_window window isModel outside opens closes open_ ends
    have two : front.length - 2 + 2 = front.length := by
      obtain ⟨before, rfl, -⟩ := window.exists_append
      simp
    exact ⟨_, two ▸ h.cons model⟩

end

/-- Among tokens outside all blocks the models are found. -/
lemma exists_found {ts front rest : List Token} {previous last : Option Token}
    (split : ts = front ++ rest) (kinds : ∀ t ∈ rest, t.kind.isToken)
    (outside : depthAfter 0 front = 0) (window : Window front previous last) :
    ∃ places, Found ts front.length places (blocksAfter previous last rest) := by
  -- Each case hands on tokens outside all blocks and the words before what follows them.
  fun_induction blocksAfter previous last rest generalizing front with
  | case1 previous last =>
    refine ⟨[], .nil fun first stop block model behind => ?_⟩
    obtain ⟨t, found, -⟩ := model.opening
    rw [split, List.append_nil, List.getElem?_eq_none behind] at found
    cases found
  | case2 previous last t rest opens unclosed =>
    refine ⟨[], .nil fun first stop block model behind => ?_⟩
    have lt := model.lt
    rw [split] at model
    exact depthBefore_ne_zero outside opens unclosed (by omega) model.closes
  | case3 previous last t rest opens close after closed ih =>
    obtain ⟨inside, rfl, closes, open_, ends⟩ := exists_stop outside opens closed
    have brace : Window (front ++ t :: (inside ++ [close])) none none := by
      have behind : Window ((front ++ t :: inside) ++ [close]) none none :=
        .brace (by rw [closes]; decide)
      simpa using behind
    obtain ⟨places, found⟩ := ih (by simp [split])
      (fun u mem => kinds u (.tail t (List.mem_append_right inside (.tail close mem)))) ends brace
    subst split
    exact found.block window outside opens closes open_ ends
  | case4 previous last t rest closes ih =>
    have other : t.kind ≠ .opening := by rw [closes]; decide
    have outside' : depthAfter 0 (front ++ [t]) = 0 := by
      rw [depthAfter_append, outside]
      exact deepen_closing closes 0
    obtain ⟨places, found⟩ := ih (by simp [split]) (fun u mem => kinds u (.tail t mem)) outside'
      (.brace (by rw [closes]; decide))
    exact ⟨places, found.step split other⟩
  | case5 previous last t rest opens closes ih =>
    have word : t.kind = .word := Kind.eq_word (kinds t List.mem_cons_self) opens closes
    have outside' : depthAfter 0 (front ++ [t]) = 0 := by
      rw [depthAfter_append, outside]
      exact deepen_other opens closes 0
    obtain ⟨places, found⟩ := ih (by simp [split]) (fun u mem => kinds u (.tail t mem)) outside'
      (.word window word)
    exact ⟨places, found.step split opens⟩

/-- The models of a schema are found. -/
lemma exists_found_tokens (s : List Char) :
    ∃ places, Found (tokens s) 0 places (blocks s) :=
  exists_found (List.nil_append (tokens s)).symm (fun _ mem => (List.mem_filter.mp mem).2) rfl .nil

/-- A model that is read stands somewhere among the tokens. -/
lemma exists_modelAt {s : List Char} {block : Block} (mem : block ∈ blocks s) :
    ∃ first last, ModelAt (tokens s) first last block := by
  obtain ⟨places, found⟩ := exists_found_tokens s
  obtain ⟨i, rfl⟩ := List.get_of_mem mem
  obtain ⟨size, each⟩ := List.forall₂_iff_get.mp found.models
  exact ⟨_, _, each i (size.symm ▸ i.isLt) i.isLt⟩

/-! ### Texts of models -/

/-- A brace is one byte. -/
lemma brace_bytes {s : List UInt8} {p : Piece} (mem : p ∈ pieces next s) :
    (p.1 = .opening → p.2 = [0x7B]) ∧ (p.1 = .closing → p.2 = [0x7D]) := by
  obtain ⟨b, rest, rfl⟩ := exists_next_of_mem_pieces mem
  rw [next]
  split_ifs with comment quoted opens closes word
  · exact ⟨by simp, by simp⟩
  · exact ⟨by simp, by simp⟩
  · exact ⟨fun _ => congrArg ([·]) opens, by simp⟩
  · exact ⟨by simp, fun _ => congrArg ([·]) closes⟩
  · exact ⟨by simp, by simp⟩
  · exact ⟨by simp, by simp⟩

/-- A token is over before a later one starts. -/
lemma stop_le_start {s : List Char} {n m : Nat} {t u : Token} (ht : (tokens s)[n]? = some t)
    (hu : (tokens s)[m]? = some u) (lt : n < m) : t.stop ≤ u.start := by
  obtain ⟨n_lt, rfl⟩ := List.getElem?_eq_some_iff.mp ht
  obtain ⟨m_lt, rfl⟩ := List.getElem?_eq_some_iff.mp hu
  have ordered : (tokens s).Pairwise fun l l' => l.stop ≤ l'.start :=
    (pairwise_lexemes 0 (bytes s)).filter _
  exact List.pairwise_iff_getElem.mp ordered n m n_lt m_lt lt

/-- The name and the body of a model are stretches of characters. -/
lemma ModelAt.exists_slices {s : List Char} {first last : Nat} {block : Block}
    (h : ModelAt (tokens s) first last block) :
    block.name.slice? s = some (block.name.slice s) ∧
      block.body.slice? s = some (block.body.slice s) := by
  constructor
  · obtain ⟨n, n_at, isName, name⟩ := h.name
    obtain ⟨w, slice, -⟩ := exists_slice_word (List.mem_of_getElem? n_at) isName
    rw [name, Span.slice, slice]
    rfl
  · obtain ⟨brace, brace_at, opens, start⟩ := h.opening
    obtain ⟨close, close_at, closes, stop⟩ := h.closing
    have opened := (isBoundary_token (List.mem_of_getElem? brace_at)).2
    have closed := (isBoundary_token (List.mem_of_getElem? close_at)).1
    have le := stop_le_start brace_at close_at h.lt
    rw [← start] at opened le
    rw [← stop] at closed le
    obtain ⟨part, slice⟩ := opened.exists_slice closed le
    rw [Span.slice, slice]
    rfl

/-- Whether a model stands in a schema from one token to another, with its name and the text between
its braces. -/
def Declares (schema : List Char) (first last : Nat) (model : Model) : Prop :=
  ∃ block, ModelAt (tokens schema) first last block ∧
    block.name.slice? schema = some model.name.toList ∧
    block.body.slice? schema = some model.body.toList

/-- The models of a schema are those that stand among its tokens, in their order and one behind the
other. A block that is never closed, so that there is always one open behind its brace, hides itself
and whatever follows it. -/
theorem models_places (schema : String) :
    ∃ places : List (Nat × Nat),
      (∀ first last, (first, last) ∈ places ↔
        ∃ block, ModelAt (tokens schema.toList) first last block) ∧
      places.Pairwise (fun p q => p.2 < q.1) ∧
      List.Forall₂ (fun p model => Declares schema.toList p.1 p.2 model) places (models schema) ∧
      ∀ n, (∀ later, n < later → depthBefore (tokens schema.toList) later ≠ 0) →
        ∀ p ∈ places, p.2 < n := by
  obtain ⟨places, found⟩ := exists_found_tokens schema.toList
  refine ⟨places, fun first last => ?_, found.ordered, ?_, ?_⟩
  · constructor
    · exact found.exists_model
    · rintro ⟨block, model⟩
      exact found.complete first last block model (Nat.zero_le _)
  · rw [models, List.forall₂_map_right_iff]
    refine found.models.imp fun p block model => ?_
    obtain ⟨name, body⟩ := model.exists_slices
    exact ⟨block, model, by rw [name, Block.model, String.toList_ofList],
      by rw [body, Block.model, String.toList_ofList]⟩
  · intro n open_ p mem
    obtain ⟨block, model⟩ := found.exists_model mem
    by_contra behind
    exact open_ (p.2 + 1) (Nat.lt_succ_of_le (Nat.not_lt.mp behind)) model.closes

end EntityForge.Schema

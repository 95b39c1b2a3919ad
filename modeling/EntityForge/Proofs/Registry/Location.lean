import EntityForge.Proofs.Registry.Layout
import Mathlib

/-!
# Where the imports list of a registry is

The code of a registry is numbered. A list is announced by the word `imports`, a colon and an
opening bracket, and it reaches to the first bracket that balances this one. `find?_location` says
that the list that is found is the first one that is announced; if that one is never closed, none is
found, whatever follows.
-/

namespace EntityForge.Registry

open Text

/-- Whether an imports list is announced: the word `imports` has a number, and a colon and an opening
bracket have the next two. -/
structure Announced (code : List Piece) (n : Nat) : Prop where
  word : code[n]? = some (wordPiece (bytesOf "imports"))
  colon : code[n + 1]? = some (markPiece 0x3A)
  bracket : code[n + 2]? = some opener

/-- The members of a list strictly between two numbers. -/
def between {α : Type} (xs : List α) (n m : Nat) : List α :=
  (xs.take m).drop (n + 1)

/-- Whether a bracket balances one with a lower number: in the code between them as many brackets are
closed as are opened. -/
structure Balances (code : List Piece) (n m : Nat) : Prop where
  lt : n < m
  bracket : code[m]? = some closer
  even : (between code n m).count closer = (between code n m).count opener

/-- Whether the first imports list that is announced is a given one: which number its word `imports`
has, and which number the first bracket has that balances the one it begins with. -/
structure Located (document : List Char) (n m : Nat) (list : ImportsList) : Prop where
  announced : IsLeast {n | Announced (code document) n} n
  balanced : IsLeast {m | Balances (code document) (n + 2) m} m
  opening : (tokens document)[n + 2]? = some list.opening
  entries : list.entries = between (tokens document) (n + 2) m
  closing : (tokens document)[m]? = some list.closing

/-! ### Announcements -/

section

variable {code before rest : List Piece}

/-- A list is announced where code goes on with what a list begins with. -/
lemma announced_iff {n : Nat} : Announced code n ↔ header <+: code.drop n := by
  constructor
  · rintro ⟨word, colon, bracket⟩
    refine List.prefix_iff_getElem?.mpr fun i lt => ?_
    rw [List.getElem?_drop]
    match i, lt with
    | 0, _ => exact word
    | 1, _ => exact colon
    | 2, _ => exact bracket
  · intro h
    have each := List.prefix_iff_getElem?.mp h
    simp only [List.getElem?_drop] at each
    exact ⟨each 0 (by decide), each 1 (by decide), each 2 (by decide)⟩

/-- A list is announced where its header stands. -/
lemma announced_length (before rest : List Piece) :
    Announced (before ++ header ++ rest) before.length := by
  rw [announced_iff, List.append_assoc, List.drop_left]
  exact List.prefix_append header rest

/-- No list begins before a header if no other is announced there. -/
lemma opensLast_iff_isLeast : OpensLast (before ++ header) ↔
    IsLeast {n | Announced (before ++ header ++ rest) n} before.length := by
  constructor
  · intro first
    refine ⟨announced_length before rest, fun n early => ?_⟩
    by_contra lt
    -- An earlier header would be over before this one is.
    have lt := Nat.not_le.mp lt
    obtain ⟨more, split⟩ := announced_iff.mp early
    have size : ((before ++ header ++ rest).take n).length = n := by simp; omega
    have whole : (before ++ header ++ rest).take n ++ header ++ more = before ++ header ++ rest := by
      rw [List.append_assoc, split, List.take_append_drop]
    obtain ⟨back, inside⟩ := List.prefix_of_prefix_length_le ⟨more, whole⟩
      (List.prefix_append (before ++ header) rest) (by simp only [List.length_append, size]; omega)
    have past := congrArg List.length inside
    rw [first _ back inside.symm] at past
    simp only [List.length_append, size, List.length_nil] at past
    omega
  · rintro ⟨-, least⟩ a b split
    have le := least (a := a.length) (by
      rw [split, List.append_assoc]
      exact announced_length a (b ++ rest))
    have size := congrArg List.length split
    simp only [List.length_append] at size
    exact List.length_eq_zero_iff.mp (by omega)

end

/-! ### Balance -/

section

variable {code entries after : List Piece} {n : Nat}

/-- What is between two numbers is the beginning of what follows the first one. -/
lemma between_add {α : Type} (xs : List α) (n k : Nat) :
    between xs n (n + 1 + k) = (xs.drop (n + 1)).take k := by
  rw [between, List.drop_take, Nat.add_sub_cancel_left]

/-- Balance is settled by what follows the opening bracket. -/
lemma balances_add_iff {k : Nat} : Balances code n (n + 1 + k) ↔
    (code.drop (n + 1))[k]? = some closer ∧
      ((code.drop (n + 1)).take k).count closer = ((code.drop (n + 1)).take k).count opener := by
  rw [List.getElem?_drop, ← between_add]
  exact ⟨fun h => ⟨h.bracket, h.even⟩, fun h => ⟨by omega, h.1, h.2⟩⟩

/-- As long as no bracket has balanced the opening one, no more are closed than are opened. -/
lemma count_take_le (least : ∀ m, Balances code n m → n + 1 + entries.length ≤ m)
    (follow : code.drop (n + 1) = entries ++ closer :: after) {k : Nat} (le : k ≤ entries.length) :
    (entries.take k).count closer ≤ (entries.take k).count opener := by
  induction k with
  | zero => exact Nat.le_refl 0
  | succ k ih =>
    have ih := ih (Nat.le_of_succ_le le)
    obtain ⟨p, here⟩ : ∃ p, entries[k]? = some p := ⟨_, List.getElem?_eq_getElem le⟩
    rw [List.take_add_one, here, Option.toList_some, List.count_append, List.count_append]
    by_cases closes : p = closer
    · subst closes
      -- Where the counts are even, the next closing bracket would balance the opening one.
      have uneven : (entries.take k).count closer ≠ (entries.take k).count opener := by
        intro even
        have early : Balances code n (n + 1 + k) := by
          rw [balances_add_iff, follow, List.getElem?_append_left le,
            List.take_append_of_le_length (Nat.le_of_succ_le le)]
          exact ⟨here, even⟩
        have := least _ early
        omega
      rw [List.count_singleton_self]
      omega
    · rw [List.count_singleton, if_neg (by simpa using closes)]
      omega

/-- The brackets of entries balance if the bracket behind them is the first one that balances the one
before them. -/
lemma closes_iff_isLeast (follow : code.drop (n + 1) = entries ++ closer :: after) :
    Closes 0 entries ↔ IsLeast {m | Balances code n m} (n + 1 + entries.length) := by
  constructor
  · intro closes
    refine ⟨?_, fun m early => ?_⟩
    · rw [Set.mem_ofPred_eq, balances_add_iff, follow, List.take_left,
        List.getElem?_append_right (Nat.le_refl _), Nat.sub_self]
      exact ⟨rfl, closes.2.trans (Nat.zero_add _)⟩
    · by_contra lt
      obtain ⟨k, rfl⟩ := Nat.exists_eq_add_of_lt early.lt
      rw [Nat.add_right_comm] at early lt
      have inside : k < entries.length := by omega
      obtain ⟨closed, even⟩ := balances_add_iff.mp early
      rw [follow, List.getElem?_append_left inside] at closed
      rw [follow, List.take_append_of_le_length inside.le] at even
      have more := closes.1 _ (List.take_prefix (k + 1) entries)
      rw [List.take_add_one, closed, Option.toList_some, List.count_append, List.count_append,
        List.count_singleton_self, List.count_eq_zero.mpr (by decide : opener ∉ [closer])] at more
      omega
  · rintro ⟨balanced, least⟩
    have least : ∀ m, Balances code n m → n + 1 + entries.length ≤ m := fun m h => least h
    refine ⟨fun part sub => ?_, ?_⟩
    · rw [List.prefix_iff_eq_take.mp sub, Nat.zero_add]
      exact count_take_le least follow sub.length_le
    · obtain ⟨-, even⟩ := balances_add_iff.mp balanced
      rw [follow, List.take_left] at even
      rw [even, Nat.zero_add]

end

/-- The first imports list of code, by the numbers of its brackets. -/
lemma isFirstList_iff {code before entries after : List Piece} :
    IsFirstList code before entries after ↔
      code = before ++ header ++ (entries ++ closer :: after) ∧
      IsLeast {n | Announced code n} before.length ∧
      IsLeast {m | Balances code (before.length + 2) m}
        (before.length + 2 + 1 + entries.length) := by
  have follow : (before ++ header ++ (entries ++ closer :: after)).drop (before.length + 2 + 1) =
      entries ++ closer :: after := List.drop_left' (by simp [header])
  constructor
  · rintro ⟨split, first, balanced⟩
    rw [List.append_assoc] at split
    subst split
    exact ⟨rfl, opensLast_iff_isLeast.mp first, (closes_iff_isLeast follow).mp balanced⟩
  · rintro ⟨rfl, first, balanced⟩
    exact ⟨by rw [List.append_assoc _ entries], opensLast_iff_isLeast.mpr first,
      (closes_iff_isLeast follow).mpr balanced⟩

/-! ### The list that is found -/

section

variable {document : List Char} {list : ImportsList} {n m : Nat}

/-- A member of a list is followed by those with higher numbers. -/
lemma drop_eq_cons {α : Type} {xs : List α} {x : α} (h : xs[n]? = some x) :
    xs.drop n = x :: xs.drop (n + 1) := by
  obtain ⟨lt, rfl⟩ := List.getElem?_eq_some_iff.mp h
  exact List.drop_eq_getElem_cons lt

/-- What follows other members has their number. -/
lemma getElem?_length {α : Type} {xs : List α} {x : α} (rest : List α) (h : xs.length = n) :
    (xs ++ x :: rest)[n]? = some x := by
  rw [← h, List.getElem?_append_right (Nat.le_refl _), Nat.sub_self]
  rfl

/-- A piece of code is that of a token. -/
lemma getElem?_code_eq_some_iff {p : Piece} :
    (code document)[n]? = some p ↔ ∃ t, (tokens document)[n]? = some t ∧ t.piece = p := by
  rw [code, List.getElem?_map, Option.map_eq_some_iff]

/-- The code of a registry around the first list. -/
lemma Located.exists_split (h : Located document n m list) : ∃ front a b after,
    tokens document = front ++ a :: b :: list.opening :: (list.entries ++ list.closing :: after) ∧
      [a, b, list.opening].map Lexeme.piece = header ∧ list.closing.piece = closer ∧
      front.length = n ∧ n + 3 + list.entries.length = m := by
  obtain ⟨a, ha, word⟩ := getElem?_code_eq_some_iff.mp h.announced.1.word
  obtain ⟨b, hb, colon⟩ := getElem?_code_eq_some_iff.mp h.announced.1.colon
  obtain ⟨o, ho, bracket⟩ := getElem?_code_eq_some_iff.mp h.announced.1.bracket
  obtain ⟨c, hc, closes⟩ := getElem?_code_eq_some_iff.mp h.balanced.1.bracket
  obtain rfl : o = list.opening := Option.some.inj (ho.symm.trans h.opening)
  obtain rfl : c = list.closing := Option.some.inj (hc.symm.trans h.closing)
  have le : n + 3 ≤ m := h.balanced.1.lt
  have lt := (List.getElem?_eq_some_iff.mp hc).1
  have inside : list.entries = ((tokens document).drop (n + 3)).take (m - (n + 3)) := by
    rw [h.entries, between, List.drop_take]
  have rest : (tokens document).drop m = ((tokens document).drop (n + 3)).drop (m - (n + 3)) := by
    rw [List.drop_drop, Nat.add_sub_cancel' le]
  refine ⟨(tokens document).take n, a, b, (tokens document).drop (m + 1), ?_, ?_, closes, ?_, ?_⟩
  · rw [← drop_eq_cons hc, inside, rest, List.take_append_drop, ← drop_eq_cons ho,
      ← drop_eq_cons hb, ← drop_eq_cons ha, List.take_append_drop]
  · rw [List.map_cons, List.map_cons, List.map_singleton, word, colon, bracket]
    rfl
  · rw [List.length_take]
    omega
  · rw [inside, List.length_take, List.length_drop]
    omega

/-- The list that is found is the first one that is announced, and it reaches to the first bracket
that balances its own. -/
lemma find?_eq_some_iff_located :
    ImportsList.find? document = some list ↔ ∃ n m, Located document n m list := by
  rw [find?_eq_some_iff]
  constructor
  · rintro ⟨front, a, b, after, e, first⟩
    obtain ⟨-, announced, balanced⟩ := isFirstList_iff.mp first
    rw [List.length_map] at announced
    rw [List.length_map, List.length_map] at balanced
    rw [List.append_cons, List.append_cons] at e
    refine ⟨_, _, announced, balanced, ?_, ?_, ?_⟩
    · exact e ▸ getElem?_length _ (by simp)
    · rw [between_add, e, List.append_cons, List.drop_left' (by simp), List.take_left]
    · rw [e, List.append_cons, ← List.append_assoc]
      exact getElem?_length _ (by simp; omega)
  · rintro ⟨n, m, h⟩
    obtain ⟨front, a, b, after, e, announces, closes, rfl, rfl⟩ := h.exists_split
    refine ⟨front, a, b, after, e, isFirstList_iff.mpr ⟨?_, ?_, ?_⟩⟩
    · rw [code, e, ← announces, ← closes]
      simp
    · rw [List.length_map]
      exact h.announced
    · rw [List.length_map, List.length_map]
      exact h.balanced

/-- A word stands in a list if its number is between those of the brackets. -/
lemma Located.hasWord_iff (h : Located document n m list) (word : List UInt8) :
    list.hasWord word ↔ ∃ k, n + 2 < k ∧ k < m ∧ (code document)[k]? = some (wordPiece word) := by
  rw [Registry.hasWord_iff, h.entries, List.mem_map]
  constructor
  · rintro ⟨t, mem, same⟩
    obtain ⟨i, here⟩ := List.mem_iff_getElem?.mp mem
    rw [between, List.getElem?_drop, List.getElem?_take] at here
    split_ifs at here with lt
    exact ⟨n + 2 + 1 + i, by omega, lt, getElem?_code_eq_some_iff.mpr ⟨t, here, same⟩⟩
  · rintro ⟨k, gt, lt, here⟩
    obtain ⟨t, here, same⟩ := getElem?_code_eq_some_iff.mp here
    refine ⟨t, List.mem_iff_getElem?.mpr ⟨k - (n + 2 + 1), ?_⟩, same⟩
    rw [between, List.getElem?_drop, Nat.add_sub_cancel' gt, List.getElem?_take_of_lt lt]
    exact here

/-- The last entry is what comes right before the closing bracket. -/
lemma Located.getLast?_entries (h : Located document n m list) :
    list.entries.getLast? = if m = n + 3 then none else (tokens document)[m - 1]? := by
  have lt := (List.getElem?_eq_some_iff.mp h.closing).1
  have le : n + 3 ≤ m := h.balanced.1.lt
  have size : list.entries.length = m - (n + 3) := by
    rw [h.entries, between, List.length_drop, List.length_take, Nat.min_eq_left lt.le]
  rw [List.getLast?_eq_getElem?, size]
  split_ifs with empty
  · exact List.getElem?_eq_none (by omega)
  · rw [h.entries, between, List.getElem?_drop, List.getElem?_take_of_lt (by omega)]
    congr 1
    omega

/-- The brackets of a list stand at their offsets in the text. -/
lemma getElem?_bytes_of_find? (h : ImportsList.find? document = some list) :
    (bytes document)[list.opening.start]? = some 0x5B ∧
      (bytes document)[list.closing.start]? = some 0x5D := by
  obtain ⟨layout⟩ := exists_layout h
  have text : bytes document =
      bytes layout.before ++ 0x5B :: (bytes layout.inside ++ 0x5D :: bytes layout.after) := by
    conv_lhs => rw [layout.text]
    rw [bytes_append, bytes_cons, bytes_append, bytes_cons]
    rfl
  constructor
  · rw [text]
    exact getElem?_length _ layout.start_opening.symm
  · rw [text, List.append_cons, ← List.append_assoc]
    exact getElem?_length _ (by rw [layout.start_closing]; simp; omega)

/-- The imports list is located exactly. It is found if some list is announced and a bracket balances
the first one that is; otherwise none is found, whatever follows. Then it begins with the bracket
that was announced and ends with the first one that balances this, both at their offsets in the
text, its entries are the code between them, and a word stands in it if it is one of these. -/
theorem find?_location (document : List Char) :
    (∀ list, ImportsList.find? document = some list ↔ ∃ n m, Located document n m list) ∧
    ((ImportsList.find? document).isSome ↔
      ∃ n, IsLeast {n | Announced (code document) n} n ∧
        ∃ m, Balances (code document) (n + 2) m) ∧
    (∀ n, IsLeast {n | Announced (code document) n} n →
      (∀ m, ¬ Balances (code document) (n + 2) m) → ImportsList.find? document = none) ∧
    ∀ list n m, Located document n m list →
      (bytes document)[list.opening.start]? = some 0x5B ∧
      (bytes document)[list.closing.start]? = some 0x5D ∧
      list.entries.getLast? = (if m = n + 3 then none else (tokens document)[m - 1]?) ∧
      ∀ word, list.hasWord word ↔
        ∃ k, n + 2 < k ∧ k < m ∧ (code document)[k]? = some (wordPiece word) := by
  have found : (ImportsList.find? document).isSome ↔
      ∃ n, IsLeast {n | Announced (code document) n} n ∧
        ∃ m, Balances (code document) (n + 2) m := by
    rw [Option.isSome_iff_exists]
    constructor
    · rintro ⟨list, find⟩
      obtain ⟨n, m, h⟩ := find?_eq_some_iff_located.mp find
      exact ⟨n, h.announced, m, h.balanced.1⟩
    · rintro ⟨n, announced, some⟩
      have balanced := isLeast_csInf some
      obtain ⟨opening, ho, -⟩ := getElem?_code_eq_some_iff.mp announced.1.bracket
      obtain ⟨closing, hc, -⟩ := getElem?_code_eq_some_iff.mp balanced.1.bracket
      exact ⟨⟨opening, _, closing⟩,
        find?_eq_some_iff_located.mpr ⟨n, _, announced, balanced, ho, rfl, hc⟩⟩
  refine ⟨fun list => find?_eq_some_iff_located, found, fun n announced open_ => ?_,
    fun list n m h => ?_⟩
  · by_contra some
    obtain ⟨n', announced', m, balances⟩ := found.mp (Option.isSome_iff_ne_none.mpr some)
    rw [announced'.unique announced] at balances
    exact open_ m balances
  · obtain ⟨opening, closing⟩ :=
      getElem?_bytes_of_find? (find?_eq_some_iff_located.mpr ⟨n, m, h⟩)
    exact ⟨opening, closing, h.getLast?_entries, h.hasWord_iff⟩

example : ImportsList.find? "imports: [ A, // ]\nimports: [B]".toList = none := by decide +kernel

end

end EntityForge.Registry

import EntityForge.Text.Bytes
import Mathlib

/-!
# Bytes and characters

A text and its bytes are put together and taken apart in the same way. A byte below `0x80` is a
character of its own, so a text can be cut on either side of it. The boundaries of a text are the
places where it can be cut.
-/

namespace EntityForge.Text

/-- No characters have no bytes. -/
@[simp]
lemma bytes_nil : bytes [] = [] := rfl

/-- The bytes of the first character come first. -/
lemma bytes_cons (c : Char) (s : List Char) :
    bytes (c :: s) = String.utf8EncodeChar c ++ bytes s := rfl

/-- The bytes of a text come before those of what follows it. -/
@[simp]
lemma bytes_append (s t : List Char) : bytes (s ++ t) = bytes s ++ bytes t :=
  List.flatMap_append

/-- The bytes of the concatenation of two strings. -/
lemma bytesOf_append (s t : String) : bytesOf (s ++ t) = bytesOf s ++ bytesOf t := by
  rw [bytesOf, String.toList_append, bytes_append]
  rfl

/-- A character has a first byte. -/
lemma exists_utf8EncodeChar (c : Char) : ∃ b bs, String.utf8EncodeChar c = b :: bs := by
  apply List.exists_cons_of_ne_nil
  rw [← List.length_pos_iff, String.length_utf8EncodeChar]
  exact c.utf8Size_pos

/-- Only the empty text has no bytes. -/
lemma bytes_eq_nil {s : List Char} (h : bytes s = []) : s = [] := by
  cases s with
  | nil => rfl
  | cons c s =>
    obtain ⟨b, bs, encoded⟩ := exists_utf8EncodeChar c
    rw [bytes_cons, encoded] at h
    cases h

/-! ### ASCII -/

/-- An ASCII character is one byte. -/
lemma utf8EncodeChar_of_ascii {c : Char} (h : c.toNat < 0x80) :
    String.utf8EncodeChar c = [c.toUInt8] := by
  have size : c.utf8Size = 1 := by
    rw [Char.utf8Size_eq_one_iff, UInt32.le_iff_toNat_le]
    exact Nat.le_of_lt_succ h
  rw [String.utf8EncodeChar_eq_singleton size]
  rfl

/-- A number from `0x80` to `0xFF` is a byte with the high bit. -/
private lemma le_ofNat {n : Nat} (low : 0x80 ≤ n) (high : n < 0x100) : 0x80 ≤ UInt8.ofNat n := by
  rw [UInt8.le_iff_toNat_le, UInt8.toNat_ofNat_of_lt' high]
  exact low

/-- The bytes of a character beyond ASCII all have the high bit. -/
lemma le_of_mem_utf8EncodeChar {c : Char} (h : 0x80 ≤ c.toNat) {b : UInt8}
    (mem : b ∈ String.utf8EncodeChar c) : 0x80 ≤ b := by
  have large : ¬ c.val.toNat ≤ 0x7f := Nat.not_le.mpr h
  simp only [String.utf8EncodeChar, large, if_false] at mem
  split_ifs at mem <;> simp only [List.mem_cons, List.not_mem_nil, or_false] at mem
  · obtain rfl | rfl := mem <;> apply le_ofNat <;> omega
  · obtain rfl | rfl | rfl := mem <;> apply le_ofNat <;> omega
  · obtain rfl | rfl | rfl | rfl := mem <;> apply le_ofNat <;> omega

/-- A byte below `0x80` is all there is of a character. -/
lemma utf8EncodeChar_eq_singleton {c : Char} {b : UInt8} (mem : b ∈ String.utf8EncodeChar c)
    (h : b < 0x80) : String.utf8EncodeChar c = [b] ∧ c.toNat < 0x80 := by
  by_cases ascii : c.toNat < 0x80
  · rw [utf8EncodeChar_of_ascii ascii, List.mem_singleton] at mem
    exact ⟨by rw [utf8EncodeChar_of_ascii ascii, mem], ascii⟩
  · have high := le_of_mem_utf8EncodeChar (Nat.not_lt.mp ascii) mem
    exact absurd h (UInt8.not_lt.mpr high)

/-- The byte of an ASCII character is below `0x80`. -/
lemma toUInt8_lt {c : Char} (h : c.toNat < 0x80) : c.toUInt8 < 0x80 := by
  rw [UInt8.lt_iff_toNat_lt]
  exact Nat.lt_of_le_of_lt (Nat.mod_le _ _) h

/-- Two ASCII characters with one byte are one character. -/
lemma eq_of_toUInt8 {c d : Char} (hc : c.toNat < 0x80) (hd : d.toNat < 0x80)
    (h : c.toUInt8 = d.toUInt8) : c = d := by
  have eq : c.toNat % 256 = d.toNat % 256 := congrArg UInt8.toNat h
  rw [Nat.mod_eq_of_lt (by omega), Nat.mod_eq_of_lt (by omega)] at eq
  exact Char.ext (UInt32.toNat_inj.mp eq)

/-- An ASCII character stands in a text where its byte stands among the bytes. -/
lemma mem_bytes_iff {c : Char} (h : c.toNat < 0x80) {s : List Char} :
    c.toUInt8 ∈ bytes s ↔ c ∈ s := by
  rw [bytes, List.mem_flatMap]
  constructor
  · rintro ⟨d, mem, byte⟩
    obtain ⟨single, ascii⟩ := utf8EncodeChar_eq_singleton byte (toUInt8_lt h)
    rw [utf8EncodeChar_of_ascii ascii, List.singleton_inj] at single
    exact eq_of_toUInt8 ascii h single ▸ mem
  · intro mem
    exact ⟨c, mem, by rw [utf8EncodeChar_of_ascii h]; exact List.mem_singleton_self _⟩

/-- A text whose bytes begin with one below `0x80` begins with that character. -/
lemma eq_cons_of_bytes_append {c : Char} (h : c.toNat < 0x80) {d : Char}
    {more bs : List UInt8} (e : String.utf8EncodeChar d ++ more = c.toUInt8 :: bs) :
    d = c ∧ more = bs := by
  have mem : c.toUInt8 ∈ String.utf8EncodeChar d := by
    obtain ⟨b, rest, encoded⟩ := exists_utf8EncodeChar d
    rw [encoded] at e ⊢
    rw [(List.cons.inj e).1]
    exact List.mem_cons_self
  obtain ⟨single, ascii⟩ := utf8EncodeChar_eq_singleton mem (toUInt8_lt h)
  rw [single] at e
  rw [utf8EncodeChar_of_ascii ascii, List.singleton_inj] at single
  exact ⟨eq_of_toUInt8 ascii h single, (List.cons.inj e).2⟩

/-- ASCII characters are told apart by their bytes. -/
lemma toUInt8_beq {c d : Char} (hc : c.toNat < 0x80) (hd : d.toNat < 0x80) :
    (c.toUInt8 == d.toUInt8) = decide (c = d) := by
  rw [Bool.beq_eq_decide_eq]
  exact decide_eq_decide.mpr ⟨eq_of_toUInt8 hc hd, congrArg _⟩

/-- Bytes at the beginning of a text that pass a test are characters that do, if only ASCII does. -/
lemma takeWhile_bytes {p : UInt8 → Bool} {q : Char → Bool}
    (ascii : ∀ c : Char, c.toNat < 0x80 → p c.toUInt8 = q c)
    (high : ∀ b : UInt8, 0x80 ≤ b → p b = false)
    (other : ∀ c : Char, 0x80 ≤ c.toNat → q c = false) (s : List Char) :
    (bytes s).takeWhile p = bytes (s.takeWhile q) := by
  induction s with
  | nil => rfl
  | cons c s ih =>
    rw [bytes_cons]
    obtain low | large := Nat.lt_or_ge c.toNat 0x80
    · rw [utf8EncodeChar_of_ascii low, List.singleton_append, List.takeWhile_cons,
        List.takeWhile_cons, ascii c low, ih]
      split_ifs
      · rw [bytes_cons, utf8EncodeChar_of_ascii low, List.singleton_append]
      · rfl
    · obtain ⟨b, bs, encoded⟩ := exists_utf8EncodeChar c
      have fails := high b (le_of_mem_utf8EncodeChar large (encoded ▸ List.mem_cons_self))
      rw [encoded, List.cons_append, List.takeWhile_cons, List.takeWhile_cons, fails,
        other c large]
      rfl

/-- Bytes at the end of a text that pass a test are characters that do, if all others than ASCII
do. -/
lemma rdropWhile_bytes {p : UInt8 → Bool} {q : Char → Bool}
    (ascii : ∀ c : Char, c.toNat < 0x80 → p c.toUInt8 = q c)
    (high : ∀ b : UInt8, 0x80 ≤ b → p b = true)
    (other : ∀ c : Char, 0x80 ≤ c.toNat → q c = true) (s : List Char) :
    (bytes s).rdropWhile p = bytes (s.rdropWhile q) := by
  induction s using List.reverseRecOn with
  | nil => rfl
  | append_singleton s c ih =>
    rw [bytes_append, bytes_cons, bytes_nil, List.append_nil, List.rdropWhile_concat]
    obtain low | large := Nat.lt_or_ge c.toNat 0x80
    · rw [utf8EncodeChar_of_ascii low, List.rdropWhile_concat, ascii c low, ih]
      split_ifs
      · rfl
      · rw [bytes_append, bytes_cons, utf8EncodeChar_of_ascii low]
        rfl
    · rw [if_pos (other c large), ← ih, List.rdropWhile, List.rdropWhile, List.reverse_append,
        List.dropWhile_append_of_pos]
      intro b mem
      exact high b (le_of_mem_utf8EncodeChar large (List.mem_reverse.mp mem))

/-! ### Cutting -/

/-- A text can be cut between its characters. -/
@[simp]
lemma cut?_append (s t : List Char) : cut? (s ++ t) (bytes s).length = some (s, t) := by
  induction s with
  | nil => simp [cut?]
  | cons c s ih =>
    have size : (bytes (c :: s)).length = c.utf8Size + (bytes s).length := by
      rw [bytes_cons, List.length_append, String.length_utf8EncodeChar]
    obtain ⟨n, hn⟩ : ∃ n, (bytes (c :: s)).length = n + 1 :=
      Nat.exists_eq_add_of_le' (size ▸ Nat.le_add_right_of_le c.utf8Size_pos)
    rw [hn, List.cons_append, cut?, if_pos (by omega)]
    rw [show n + 1 - c.utf8Size = (bytes s).length by omega, ih]
    rfl

/-- Where a text is divided is settled by the bytes before. -/
lemma append_inj_of_bytes {s t u v : List Char} (h : s ++ t = u ++ v)
    (size : (bytes s).length = (bytes u).length) : s = u ∧ t = v := by
  have cut := cut?_append s t
  rw [h, size, cut?_append] at cut
  cases cut
  exact ⟨rfl, rfl⟩

/-- Cutting a text after the bytes of a part. -/
lemma cut?_eq_some {s a b : List Char} {n : Nat} (split : s = a ++ b) (size : n = (bytes a).length) :
    cut? s n = some (a, b) := by
  rw [split, size]
  exact cut?_append a b

/-- The characters between two others are the stretch between their bytes. -/
lemma slice?_eq_some {s a b c : List Char} {start stop : Nat} (split : s = a ++ (b ++ c))
    (before : start = (bytes a).length) (size : stop = start + (bytes b).length) :
    Span.slice? ⟨start, stop⟩ s = some b := by
  simp [Span.slice?, split, size, before]

/-- A text can be cut on either side of a byte below `0x80`, which is a character. -/
lemma exists_split {s : List Char} {a b : List UInt8} {x : UInt8} (low : x < 0x80)
    (h : bytes s = a ++ x :: b) :
    ∃ u c v, s = u ++ c :: v ∧ bytes u = a ∧ String.utf8EncodeChar c = [x] ∧ bytes v = b := by
  induction s generalizing a with
  | nil => simp at h
  | cons d s ih =>
    rw [bytes_cons] at h
    obtain ⟨a', ha, rest⟩ | ⟨b', hd, rest⟩ := List.append_eq_append_iff.mp h
    · obtain ⟨u, c, v, rfl, rfl, hc, rfl⟩ := ih rest
      exact ⟨d :: u, c, v, rfl, by rw [bytes_cons, ha], hc, rfl⟩
    · cases b' with
      | nil =>
        rw [List.append_nil] at hd
        rw [List.nil_append] at rest
        obtain ⟨u, c, v, rfl, hu, hc, rfl⟩ := ih (a := []) rest.symm
        refine ⟨d :: u, c, v, rfl, ?_, hc, rfl⟩
        rw [bytes_cons, hu, hd, List.append_nil]
      | cons y b' =>
        cases rest
        have mem : x ∈ String.utf8EncodeChar d :=
          hd ▸ List.mem_append_right a List.mem_cons_self
        obtain ⟨single, -⟩ := utf8EncodeChar_eq_singleton mem low
        rw [single] at hd
        obtain ⟨rfl, e⟩ | ⟨rfl, none⟩ := List.singleton_eq_append_iff.mp hd
        · cases e
          exact ⟨[], d, s, rfl, rfl, single, rfl⟩
        · cases none

/-- A text can be cut on either side of the byte of an ASCII character. -/
lemma exists_split_char {s : List Char} {a b : List UInt8} {c : Char} (ascii : c.toNat < 0x80)
    (h : bytes s = a ++ c.toUInt8 :: b) :
    ∃ u v, s = u ++ c :: v ∧ bytes u = a ∧ bytes v = b := by
  obtain ⟨u, d, v, rfl, hu, hd, hv⟩ := exists_split (toUInt8_lt ascii) h
  have mem : c.toUInt8 ∈ String.utf8EncodeChar d := hd ▸ List.mem_singleton_self _
  obtain ⟨-, ascii'⟩ := utf8EncodeChar_eq_singleton mem (toUInt8_lt ascii)
  rw [utf8EncodeChar_of_ascii ascii', List.singleton_inj] at hd
  exact ⟨u, v, by rw [eq_of_toUInt8 ascii' ascii hd], hu, hv⟩

/-- A text whose bytes end with that of an ASCII character ends with the character. -/
lemma getLast?_of_bytes {s : List Char} {c : Char} (ascii : c.toNat < 0x80)
    (last : (bytes s).getLast? = some c.toUInt8) : s.getLast? = some c := by
  obtain ⟨init, split⟩ := List.getLast?_eq_some_iff.mp last
  obtain ⟨u, v, rfl, -, hv⟩ := exists_split_char ascii split
  rw [bytes_eq_nil hv, List.getLast?_concat]

/-! ### Boundaries -/

/-- Whether a number of bytes reaches to a place between two characters or to an end of the text. -/
def IsBoundary (s : List Char) (n : Nat) : Prop :=
  ∃ u v, s = u ++ v ∧ n = (bytes u).length

/-- A text can be cut at the boundaries. -/
lemma isSome_cut?_iff {s : List Char} {n : Nat} : (cut? s n).isSome ↔ IsBoundary s n := by
  constructor
  · fun_induction cut? s n with
    | case1 s => exact fun _ => ⟨[], s, rfl, rfl⟩
    | case2 => exact fun h => nomatch h
    | case3 c rest n fits ih =>
      rw [Option.isSome_map]
      intro h
      obtain ⟨u, v, rfl, size⟩ := ih h
      refine ⟨c :: u, v, rfl, ?_⟩
      rw [bytes_cons, List.length_append, String.length_utf8EncodeChar, ← size]
      omega
    | case4 => exact fun h => nomatch h
  · rintro ⟨u, v, rfl, rfl⟩
    rw [cut?_append]
    rfl

/-- The parts of a text that is cut make it up. -/
lemma eq_append_of_cut? {s a b : List Char} {n : Nat} (h : cut? s n = some (a, b)) :
    s = a ++ b ∧ n = (bytes a).length := by
  obtain ⟨u, v, rfl, rfl⟩ := isSome_cut?_iff.mp (Option.isSome_of_eq_some h)
  rw [cut?_append] at h
  cases h
  exact ⟨rfl, rfl⟩

/-- A stretch that is taken out of a text stands between two parts of it. -/
lemma exists_append_of_slice? {span : Span} {s part : List Char} (h : span.slice? s = some part) :
    ∃ a c, span.start ≤ span.stop ∧ s = a ++ (part ++ c) ∧ span.start = (bytes a).length ∧
      span.stop = (bytes (a ++ part)).length := by
  obtain ⟨start, stop⟩ := span
  simp only [Span.slice?, Option.bind_eq_bind, Option.bind_eq_some_iff] at h
  obtain ⟨⟨a, rest⟩, before, _, le, ⟨part', c⟩, here, last⟩ := h
  cases last
  have ordered : start ≤ stop := by
    by_contra behind
    simp [guard, behind] at le
  obtain ⟨rfl, size⟩ := eq_append_of_cut? before
  obtain ⟨rfl, width⟩ := eq_append_of_cut? here
  refine ⟨a, c, ordered, rfl, size, ?_⟩
  rw [bytes_append, List.length_append, ← size, ← width, Nat.add_sub_cancel' ordered]

/-- A stretch of a text stays where it is when the text goes on. -/
lemma slice?_append {span : Span} {s part : List Char} (h : span.slice? s = some part)
    (t : List Char) : span.slice? (s ++ t) = some part := by
  obtain ⟨a, c, -, rfl, start, stop⟩ := exists_append_of_slice? h
  refine slice?_eq_some (a := a) (c := c ++ t) (by simp) start ?_
  rw [stop, start, bytes_append, List.length_append]

/-- A boundary in front of another one divides the text up to there. -/
lemma IsBoundary.exists_split {s u v : List Char} {n : Nat} (h : IsBoundary s n) (e : s = u ++ v)
    (le : n ≤ (bytes u).length) : ∃ a b, u = a ++ b ∧ n = (bytes a).length := by
  obtain ⟨a, rest, split, rfl⟩ := h
  obtain ⟨more, rfl, -⟩ | ⟨b, rfl, -⟩ := List.append_eq_append_iff.mp (e.symm.trans split)
  · rw [bytes_append, List.length_append] at le
    have none := bytes_eq_nil (List.length_eq_zero_iff.mp (show (bytes more).length = 0 by omega))
    exact ⟨u, [], (List.append_nil u).symm, by rw [none, List.append_nil]⟩
  · exact ⟨a, b, rfl, rfl⟩

/-- There are characters between two boundaries. -/
lemma IsBoundary.exists_slice {s : List Char} {start stop : Nat} (h : IsBoundary s start)
    (h' : IsBoundary s stop) (le : start ≤ stop) :
    ∃ part, Span.slice? ⟨start, stop⟩ s = some part := by
  obtain ⟨u, v, split, rfl⟩ := h'
  obtain ⟨a, part, rfl, rfl⟩ := h.exists_split split le
  refine ⟨part, slice?_eq_some (split.trans (List.append_assoc a part v)) rfl ?_⟩
  rw [bytes_append, List.length_append]

/-- Whether a stretch starts and stops between characters of a text and stops no sooner than it
starts. -/
structure Span.Fits (span : Span) (s : List Char) : Prop where
  ordered : span.start ≤ span.stop
  starts : IsBoundary s span.start
  stops : IsBoundary s span.stop

/-- The stretches that fit a text are those that can be taken out of it. -/
lemma isSome_slice?_iff {span : Span} {s : List Char} : (span.slice? s).isSome ↔ span.Fits s := by
  constructor
  · intro h
    obtain ⟨part, taken⟩ := Option.isSome_iff_exists.mp h
    obtain ⟨a, c, ordered, split, start, stop⟩ := exists_append_of_slice? taken
    exact ⟨ordered, ⟨a, _, split, start⟩, ⟨a ++ part, c, by rw [split, List.append_assoc], stop⟩⟩
  · rintro ⟨ordered, starts, stops⟩
    obtain ⟨part, taken⟩ := starts.exists_slice stops ordered
    exact Option.isSome_of_eq_some taken

/-- One byte before a boundary is another one if the character between them is ASCII. -/
lemma isBoundary_pred_iff {s u v : List Char} {c : Char} (e : s = u ++ [c] ++ v) :
    IsBoundary s ((bytes (u ++ [c])).length - 1) ↔ c.toNat < 0x80 := by
  constructor
  · intro h
    obtain ⟨a, b, split, size⟩ := h.exists_split e (Nat.sub_le _ _)
    have whole := congrArg (fun t => (bytes t).length) split
    simp only [bytes_append, List.length_append] at whole size
    have pos := c.utf8Size_pos
    have width : (bytes [c]).length = c.utf8Size := by
      rw [bytes_cons, bytes_nil, List.append_nil, String.length_utf8EncodeChar]
    cases b using List.reverseRecOn with
    | nil => simp only [bytes_nil, List.length_nil] at whole; omega
    | append_singleton b d =>
      rw [← List.append_assoc] at split
      obtain ⟨-, same⟩ := List.append_inj' split rfl
      cases same
      rw [bytes_append, List.length_append] at whole
      have one : c.utf8Size = 1 := by omega
      rw [Char.utf8Size_eq_one_iff, UInt32.le_iff_toNat_le] at one
      exact Nat.lt_succ_of_le one
  · intro ascii
    refine ⟨u, [c] ++ v, e.trans (List.append_assoc _ _ _), ?_⟩
    rw [bytes_append, List.length_append, bytes_cons, utf8EncodeChar_of_ascii ascii]
    rfl

/-- There is a boundary in front of a byte below `0x80`. -/
lemma isBoundary_before {s : List Char} {a b : List UInt8} {x : UInt8} (h : bytes s = a ++ x :: b)
    (low : x < 0x80) : IsBoundary s a.length := by
  obtain ⟨u, c, v, rfl, rfl, -, -⟩ := exists_split low h
  exact ⟨u, c :: v, rfl, rfl⟩

/-- There is a boundary behind a byte of ASCII. -/
lemma isBoundary_behind {s : List Char} {a b : List UInt8} {x : UInt8} (h : bytes s = a ++ x :: b)
    (low : x < 0x80) : IsBoundary s (a ++ [x]).length := by
  obtain ⟨u, c, v, rfl, rfl, single, -⟩ := exists_split low h
  refine ⟨u ++ [c], v, List.append_cons _ _ _, ?_⟩
  rw [bytes_append, bytes_cons, single]
  rfl

end EntityForge.Text

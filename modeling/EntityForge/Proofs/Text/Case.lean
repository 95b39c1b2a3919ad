import EntityForge.Proofs.Text.Word
import EntityForge.Text.Case
import Mathlib

/-!
# Case and the characters of words

A change of case keeps a text from becoming empty, and it leads from characters of words to such
characters and from others to others. So a text whose lower-case form is a word is a word itself.
A text has the lower-case form of an ASCII word only if it is that word up to the case of ASCII,
unless the word has a `k`, which the Kelvin sign becomes as well.
-/

namespace EntityForge.Text

/-! ### Tables -/

/-- What a run moves are characters of words: one character, or a stretch beyond ASCII that does not
meet the gap in the code points. -/
def CaseRun.IsSound (r : CaseRun) : Prop :=
  (r.first = r.last ∧ IsWordChar (Char.ofNat (r.first + r.shift).toNat)) ∨
    (0x80 ≤ r.first + r.shift ∧ r.last + r.shift < 0xD800) ∨
    (0xE000 ≤ r.first + r.shift ∧ r.last + r.shift < 0x110000)

/-- Whether a run is sound can be checked by its bounds. -/
instance (r : CaseRun) : Decidable r.IsSound :=
  inferInstanceAs (Decidable (_ ∨ _ ∨ _))

/-- A code point beyond ASCII that is none of the gap is that of a character of words. -/
private lemma isWordChar_ofNat {n : Nat} (high : 0x80 ≤ n) (valid : n.isValidChar) :
    IsWordChar (Char.ofNat n) := by
  refine .inr (.inr ?_)
  rw [Char.ofNat, dif_pos valid]
  exact high

/-- A table of sound runs moves characters of words to such characters. -/
lemma isWordChar_shifted {runs : List CaseRun} (sound : ∀ r ∈ runs, r.IsSound) {c : Char}
    (h : IsWordChar c) : IsWordChar (Char.ofNat (shifted runs c.toNat)) := by
  rw [shifted]
  cases find : runs.find? (·.covers c.toNat) with
  | none =>
    rw [Char.ofNat_toNat]
    exact h
  | some r =>
    have covers := List.find?_some find
    dsimp only
    simp only [CaseRun.covers, Bool.and_eq_true, decide_eq_true_eq] at covers
    obtain ⟨single, word⟩ | low | high := sound r (List.mem_of_find?_eq_some find)
    · have here : c.toNat = r.first := by omega
      simpa only [here] using word
    · exact isWordChar_ofNat (by omega) (.inl (by omega))
    · exact isWordChar_ofNat (by omega) (.inr ⟨by omega, by omega⟩)

/-- What the runs for small letters do: they are sound, and a single character that they move becomes
one beyond ASCII or `k`. -/
private lemma lowerRuns_sound : ∀ r ∈ lowerRuns, r.IsSound ∧ (r.first = r.last →
    0x80 ≤ (Char.ofNat (r.first + r.shift).toNat).toNat ∨
      Char.ofNat (r.first + r.shift).toNat = 'k') := by
  decide +kernel

/-- What the runs for capitals do: they are sound, and a single character that they move becomes no
small letter of ASCII. -/
private lemma upperRuns_sound : ∀ r ∈ upperRuns, r.IsSound ∧ (r.first = r.last →
    (Char.ofNat (r.first + r.shift).toNat).isLower = false) := by
  decide +kernel

/-- Characters that become several ones become characters of words, of which the first is no small
letter of ASCII. -/
private lemma upperExpansions_sound : ∀ e ∈ upperExpansions,
    (∀ code ∈ e.2, IsWordChar (Char.ofNat code)) ∧
      e.2 ≠ [] ∧ ∀ code ∈ e.2.head?, (Char.ofNat code).isLower = false := by
  decide +kernel

/-! ### Characters -/

/-- A character has a lower-case form. -/
lemma lower_ne_nil (c : Char) : lower c ≠ [] := by
  rw [lower]
  split_ifs <;> exact List.cons_ne_nil _ _

/-- The lower-case form of a character is in words if and only if the character is. -/
lemma forall_isWordChar_lower {c : Char} : (∀ d ∈ lower c, IsWordChar d) ↔ IsWordChar c := by
  rw [lower]
  split_ifs with ascii dotted
  · rw [List.forall_mem_singleton]
    exact forall_ascii (P := fun c => IsWordChar c.toLower ↔ IsWordChar c) (by decide) ascii
  · exact iff_of_true (by simp [IsWordChar]) (.inr (.inr (Nat.not_lt.mp ascii)))
  · have word : IsWordChar c := .inr (.inr (Nat.not_lt.mp ascii))
    refine iff_of_true ?_ word
    rw [List.forall_mem_singleton]
    exact isWordChar_shifted (fun r mem => (lowerRuns_sound r mem).1) word

/-- The upper-case form of a character of words is made of such characters. -/
lemma isWordChar_of_mem_upper {c d : Char} (h : IsWordChar c) (mem : d ∈ upper c) :
    IsWordChar d := by
  rw [upper] at mem
  split_ifs at mem with ascii
  · rw [List.mem_singleton.mp mem]
    exact forall_ascii (P := fun c => IsWordChar c → IsWordChar c.toUpper) (by decide) ascii h
  · cases find : upperExpansions.lookup c.toNat with
    | none =>
      rw [find] at mem
      rw [List.mem_singleton.mp mem]
      exact isWordChar_shifted (fun r mem => (upperRuns_sound r mem).1) h
    | some codes =>
      rw [find] at mem
      obtain ⟨code, here, rfl⟩ := List.mem_map.mp mem
      obtain ⟨before, after, split, -⟩ := List.lookup_eq_some_iff.mp find
      have entry : (c.toNat, codes) ∈ upperExpansions := by simp [split]
      exact (upperExpansions_sound _ entry).1 code here

/-- A character that is none of words is the lower-case form of itself only. -/
lemma eq_of_mem_lower {c d : Char} (other : ¬ IsWordChar d) (mem : d ∈ lower c) : c = d := by
  have plain : ¬ IsWordChar c := fun word => other (forall_isWordChar_lower.mpr word d mem)
  have ascii : c.toNat < 0x80 := Nat.not_le.mp fun high => plain (.inr (.inr high))
  rw [lower, if_pos ascii, List.mem_singleton] at mem
  have same := forall_ascii (P := fun c => ¬ IsWordChar c → c.toLower = c) (by decide) ascii
  exact (mem.trans (same plain)).symm

/-! ### Texts -/

/-- A character that is none of words is not brought into a text by lower case. -/
lemma mem_of_mem_lowerAfter {before s : List Char} {d : Char} (other : ¬ IsWordChar d)
    (mem : d ∈ lowerAfter before s) : d ∈ s := by
  induction s generalizing before with
  | nil => cases mem
  | cons c s ih =>
    rw [lowerAfter, List.mem_append] at mem
    obtain here | later := mem
    · have sigmas : IsWordChar 'ς' ∧ IsWordChar 'σ' := by decide
      split_ifs at here
      · exact absurd (List.mem_singleton.mp here ▸ sigmas.1) other
      · exact absurd (List.mem_singleton.mp here ▸ sigmas.2) other
      · exact eq_of_mem_lower other here ▸ List.mem_cons_self
    · exact List.mem_cons_of_mem c (ih later)

/-- Only the empty text has an empty lower-case form. -/
lemma lowerAfter_eq_nil {before s : List Char} : lowerAfter before s = [] ↔ s = [] := by
  cases s with
  | nil => exact iff_of_true rfl rfl
  | cons c s =>
    refine iff_of_false ?_ (List.cons_ne_nil c s)
    refine List.append_ne_nil_of_left_ne_nil ?_ (lowerAfter (c :: before) s)
    split_ifs
    · exact List.cons_ne_nil _ _
    · exact List.cons_ne_nil _ _
    · exact lower_ne_nil c

/-- A text in lower case has only characters of words if the text has. -/
private lemma forall_isWordChar_lowerAfter {before s : List Char} :
    (∀ d ∈ lowerAfter before s, IsWordChar d) ↔ ∀ c ∈ s, IsWordChar c := by
  induction s generalizing before with
  | nil => exact iff_of_true (fun _ mem => nomatch mem) (fun _ mem => nomatch mem)
  | cons c s ih =>
    rw [lowerAfter, List.forall_mem_append, ih, List.forall_mem_cons]
    refine and_congr_left fun _ => ?_
    split_ifs with sigma last
    · exact iff_of_true (by simp [IsWordChar]) (by simp [IsWordChar, sigma])
    · exact iff_of_true (by simp [IsWordChar]) (by simp [IsWordChar, sigma])
    · exact forall_isWordChar_lower

/-- The lower-case form of a text is made of characters of words if and only if the text is. -/
lemma forall_isWordChar_lowerCase {s : List Char} :
    (∀ d ∈ lowerCase s, IsWordChar d) ↔ ∀ c ∈ s, IsWordChar c :=
  forall_isWordChar_lowerAfter

/-- Capitalizing leaves characters of words such characters. -/
lemma isWordChar_of_mem_capitalize {s : List Char} (h : ∀ c ∈ s, IsWordChar c) :
    ∀ d ∈ capitalize s, IsWordChar d := by
  cases s with
  | nil => exact h
  | cons c s =>
    obtain ⟨first, others⟩ := List.forall_mem_cons.mp h
    rw [capitalize, List.forall_mem_append]
    refine ⟨fun d mem => isWordChar_of_mem_upper first mem, fun d mem => ?_⟩
    obtain ⟨e, here, mem⟩ := List.mem_flatMap.mp mem
    exact forall_isWordChar_lower.mpr (others e here) d mem

/-! ### The case of ASCII characters -/

/-- The case map of ASCII changes nothing beyond ASCII. -/
lemma toLower_of_high {c : Char} (high : 0x80 ≤ c.toNat) : c.toLower = c := by
  refine dif_neg fun capital => ?_
  have small : c.toNat ≤ 'Z'.toNat := UInt32.le_iff_toNat_le.mp capital.2
  exact absurd (Nat.le_trans high small) (by decide)

/-- A table of sound runs moves a character beyond ASCII to another one, unless by a run of one
character. -/
private lemma shifted_of_high {runs : List CaseRun} (sound : ∀ r ∈ runs, r.IsSound) {c : Char}
    (high : 0x80 ≤ c.toNat) :
    0x80 ≤ (Char.ofNat (shifted runs c.toNat)).toNat ∨
      ∃ r ∈ runs, r.first = r.last ∧ shifted runs c.toNat = (r.first + r.shift).toNat := by
  rw [shifted]
  cases find : runs.find? (·.covers c.toNat) with
  | none =>
    rw [Char.ofNat_toNat]
    exact .inl high
  | some r =>
    have mem := List.mem_of_find?_eq_some find
    have covers := List.find?_some find
    dsimp only
    simp only [CaseRun.covers, Bool.and_eq_true, decide_eq_true_eq] at covers
    obtain ⟨single, -⟩ | low | high := sound r mem
    · exact .inr ⟨r, mem, single, by rw [show c.toNat = r.first by omega]⟩
    · have valid : (c.toNat + r.shift).toNat.isValidChar := .inl (by omega)
      rw [Char.toNat_ofNat, if_pos valid]
      exact .inl (by omega)
    · have valid : (c.toNat + r.shift).toNat.isValidChar := .inr ⟨by omega, by omega⟩
      rw [Char.toNat_ofNat, if_pos valid]
      exact .inl (by omega)

/-- A character beyond ASCII is no small letter of ASCII. -/
lemma isLower_of_high {c : Char} (high : 0x80 ≤ c.toNat) : c.isLower = false := by
  rw [Char.isLower, Bool.and_eq_false_iff]
  refine .inr (decide_eq_false fun small => ?_)
  have small : c.toNat ≤ 'z'.toNat := UInt32.le_iff_toNat_le.mp small
  exact absurd (Nat.le_trans high small) (by decide)

/-- The upper-case form of a character does not begin with a small letter of ASCII. -/
lemma exists_head_upper (c : Char) : ∃ d rest, upper c = d :: rest ∧ d.isLower = false := by
  rw [upper]
  split_ifs with ascii
  · exact ⟨_, [], rfl,
      forall_ascii (P := fun c => c.toUpper.isLower = false) (by decide) ascii⟩
  · cases find : upperExpansions.lookup c.toNat with
    | some codes =>
      obtain ⟨before, after, split, -⟩ := List.lookup_eq_some_iff.mp find
      obtain ⟨-, ne, first⟩ := upperExpansions_sound (c.toNat, codes) (by simp [split])
      obtain ⟨code, rest, rfl⟩ := List.exists_cons_of_ne_nil ne
      exact ⟨Char.ofNat code, rest.map Char.ofNat, rfl, first code rfl⟩
    | none =>
      refine ⟨_, [], rfl, ?_⟩
      obtain beyond | ⟨r, mem, single, e⟩ :=
        shifted_of_high (fun r mem => (upperRuns_sound r mem).1) (Nat.not_lt.mp ascii)
      · exact isLower_of_high beyond
      · rw [e]
        exact (upperRuns_sound r mem).2 single

/-- A character beyond ASCII has a lower-case form beyond ASCII, except for the sign of the kelvin. -/
private lemma high_shifted {c : Char} (high : 0x80 ≤ c.toNat) :
    0x80 ≤ (Char.ofNat (shifted lowerRuns c.toNat)).toNat ∨
      Char.ofNat (shifted lowerRuns c.toNat) = 'k' := by
  obtain beyond | ⟨r, mem, single, e⟩ :=
    shifted_of_high (fun r mem => (lowerRuns_sound r mem).1) high
  · exact .inl beyond
  · rw [e]
    exact (lowerRuns_sound r mem).2 single

/-- The lower-case form of a character beyond ASCII is made of ASCII letters at most if it is `k`. -/
lemma exists_mem_lower {c : Char} (high : 0x80 ≤ c.toNat) :
    ∃ d ∈ lower c, 0x80 ≤ d.toNat ∨ d = 'k' := by
  rw [lower, if_neg (Nat.not_lt.mpr high)]
  split_ifs
  · exact ⟨Char.ofNat 0x307, by simp, .inl (by decide)⟩
  · exact ⟨_, List.mem_singleton_self _, high_shifted high⟩

/-- There are no capitals of ASCII in the lower-case form of a character. -/
lemma toLower_of_mem_lower {c d : Char} (mem : d ∈ lower c) : d.toLower = d := by
  rw [lower] at mem
  split_ifs at mem with ascii dotted
  · rw [List.mem_singleton.mp mem]
    exact forall_ascii (P := fun c => c.toLower.toLower = c.toLower) (by decide) ascii
  · obtain rfl | rfl : d = 'i' ∨ d = Char.ofNat 0x307 := by simpa using mem
    all_goals decide
  · rw [List.mem_singleton.mp mem]
    obtain beyond | letter := high_shifted (Nat.not_lt.mp ascii)
    · exact toLower_of_high beyond
    · rw [letter]
      decide

/-- A text of ASCII characters other than `k` is the lower-case form of its own spellings in ASCII and
of nothing else. -/
lemma lowerAfter_eq_iff {before s t : List Char} (plain : ∀ d ∈ t, d.toNat < 0x80 ∧ d ≠ 'k') :
    lowerAfter before s = t ↔ s.map Char.toLower = t := by
  induction s generalizing before t with
  | nil => rfl
  | cons c s ih =>
    rw [lowerAfter, List.map_cons]
    by_cases ascii : c.toNat < 0x80
    · have sigma : c ≠ 'Σ' := by
        rintro rfl
        exact absurd ascii (by decide)
      rw [if_neg sigma, lower, if_pos ascii, List.singleton_append]
      cases t with
      | nil => exact iff_of_false (List.cons_ne_nil _ _) (List.cons_ne_nil _ _)
      | cons d t =>
        rw [List.cons.injEq, List.cons.injEq, ih (List.forall_mem_cons.mp plain).2]
    · have high := Nat.not_lt.mp ascii
      refine iff_of_false ?_ ?_
      · rintro rfl
        obtain ⟨d, mem, foreign⟩ : ∃ d ∈ if c = 'Σ' then
            [if meetsCased before && !meetsCased s then 'ς' else 'σ'] else lower c,
            0x80 ≤ d.toNat ∨ d = 'k' := by
          split_ifs
          · exact ⟨_, List.mem_singleton_self _, .inl (by decide)⟩
          · exact ⟨_, List.mem_singleton_self _, .inl (by decide)⟩
          · exact exists_mem_lower high
        obtain ⟨low, letter⟩ := plain d (List.mem_append_left _ mem)
        obtain beyond | rfl := foreign
        · exact absurd low (Nat.not_lt.mpr beyond)
        · exact letter rfl
      · rintro rfl
        obtain ⟨low, -⟩ := plain c.toLower List.mem_cons_self
        rw [toLower_of_high high] at low
        exact ascii low

/-- The lower-case form of an ASCII text is its spelling in small letters. -/
lemma lowerAfter_of_ascii {before s : List Char} (ascii : ∀ c ∈ s, c.toNat < 0x80) :
    lowerAfter before s = s.map Char.toLower := by
  induction s generalizing before with
  | nil => rfl
  | cons c s ih =>
    obtain ⟨first, others⟩ := List.forall_mem_cons.mp ascii
    have sigma : c ≠ 'Σ' := by
      rintro rfl
      exact absurd first (by decide)
    rw [lowerAfter, if_neg sigma, lower, if_pos first, ih others]
    rfl

/-- ASCII characters have the same capital if and only if they have the same small letter. -/
lemma toUpper_eq_iff {c d : Char} (hc : c.toNat < 0x80) (hd : d.toNat < 0x80) :
    c.toUpper = d.toUpper ↔ c.toLower = d.toLower := by
  have back {c : Char} (h : c.toNat < 0x80) :
      c.toUpper.toLower = c.toLower ∧ c.toLower.toUpper = c.toUpper :=
    forall_ascii (P := fun c => c.toUpper.toLower = c.toLower ∧ c.toLower.toUpper = c.toUpper)
      (by decide) h
  constructor
  · intro same
    rw [← (back hc).1, same, (back hd).1]
  · intro same
    rw [← (back hc).2, same, (back hd).2]

/-- An ASCII text is capitalized letter by letter. -/
lemma capitalize_of_ascii {c : Char} {s : List Char} (ascii : ∀ d ∈ c :: s, d.toNat < 0x80) :
    capitalize (c :: s) = c.toUpper :: s.map Char.toLower := by
  obtain ⟨first, others⟩ := List.forall_mem_cons.mp ascii
  rw [capitalize, upper, if_pos first, List.map_eq_flatMap]
  refine congrArg (c.toUpper :: ·) (List.flatMap_congr fun d mem => ?_)
  rw [lower, if_pos (others d mem)]

/-- ASCII texts become the same when capitalized if and only if they differ at most in case. -/
lemma capitalize_eq_iff {s t : List Char} (hs : ∀ c ∈ s, c.toNat < 0x80)
    (ht : ∀ c ∈ t, c.toNat < 0x80) :
    capitalize s = capitalize t ↔ s.map Char.toLower = t.map Char.toLower := by
  cases s with
  | nil =>
    cases t with
    | nil => exact iff_of_true rfl rfl
    | cons d t =>
      rw [capitalize_of_ascii ht]
      exact iff_of_false (List.cons_ne_nil _ _).symm (List.cons_ne_nil _ _).symm
  | cons c s =>
    rw [capitalize_of_ascii hs]
    cases t with
    | nil => exact iff_of_false (List.cons_ne_nil _ _) (List.cons_ne_nil _ _)
    | cons d t =>
      rw [capitalize_of_ascii ht, List.cons.injEq, List.map_cons, List.map_cons, List.cons.injEq,
        toUpper_eq_iff (hs c List.mem_cons_self) (ht d List.mem_cons_self)]

/-- There are no capitals of ASCII in the lower-case form of a text. -/
lemma map_toLower_lowerAfter (before s : List Char) :
    (lowerAfter before s).map Char.toLower = lowerAfter before s := by
  induction s generalizing before with
  | nil => rfl
  | cons c s ih =>
    rw [lowerAfter, List.map_append, ih]
    refine congrArg (· ++ _) ?_
    split_ifs
    · decide
    · decide
    · exact (List.map_congr_left fun _ mem => toLower_of_mem_lower mem).trans (List.map_id _)

end EntityForge.Text

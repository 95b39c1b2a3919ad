import EntityForge.Proofs.Text.Bytes
import EntityForge.Text.Lexeme
import Mathlib

/-!
# Characters of words

The bytes of a word make up whole characters: letters and digits of ASCII, underscores, and all
characters beyond ASCII.
-/

namespace EntityForge.Text

/-- A letter or digit of ASCII, an underscore, or a character beyond ASCII. -/
def IsWordChar (c : Char) : Prop :=
  c.isAlphanum ∨ c = '_' ∨ 0x80 ≤ c.toNat

/-- Characters of words can be looked up. -/
instance (c : Char) : Decidable (IsWordChar c) :=
  inferInstanceAs (Decidable (c.isAlphanum ∨ c = '_' ∨ 0x80 ≤ c.toNat))

/-- What can be checked of the first 128 code points holds of all ASCII characters. -/
lemma forall_ascii {P : Char → Prop} (h : ∀ n < 0x80, P (Char.ofNat n)) {c : Char}
    (ascii : c.toNat < 0x80) : P c := by
  have := h c.toNat ascii
  rwa [Char.ofNat_toNat] at this

/-- An ASCII character belongs in words if its byte does. -/
lemma isWordByte_toUInt8 {c : Char} (ascii : c.toNat < 0x80) :
    isWordByte c.toUInt8 ↔ IsWordChar c :=
  forall_ascii (P := fun c => isWordByte c.toUInt8 ↔ IsWordChar c) (by decide) ascii

/-- The bytes of a text belong in words if its characters do. -/
lemma forall_isWordByte_iff {s : List Char} :
    (∀ b ∈ bytes s, isWordByte b) ↔ ∀ c ∈ s, IsWordChar c := by
  constructor
  · intro h c mem
    by_cases ascii : c.toNat < 0x80
    · exact (isWordByte_toUInt8 ascii).mp (h _ ((mem_bytes_iff ascii).mpr mem))
    · exact .inr (.inr (Nat.not_lt.mp ascii))
  · intro h b mem
    obtain ⟨c, here, byte⟩ := List.mem_flatMap.mp mem
    by_cases ascii : c.toNat < 0x80
    · rw [utf8EncodeChar_of_ascii ascii, List.mem_singleton] at byte
      rw [byte, isWordByte_toUInt8 ascii]
      exact h c here
    · have high := le_of_mem_utf8EncodeChar (Nat.not_lt.mp ascii) byte
      simp [isWordByte, high]

/-- All bytes beyond ASCII can stand in a word. -/
lemma isWordByte_of_le {b : UInt8} (high : 0x80 ≤ b) : isWordByte b := by
  rw [isWordByte, decide_eq_true high, Bool.or_true]

/-- A text of word characters has no other character. -/
lemma not_mem_of_isWordChar {s : List Char} (h : ∀ c ∈ s, IsWordChar c) {c : Char}
    (other : ¬ IsWordChar c) : c ∉ s :=
  fun mem => other (h c mem)

end EntityForge.Text

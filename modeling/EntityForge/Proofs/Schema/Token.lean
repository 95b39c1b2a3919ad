import EntityForge.Proofs.Text.Extent
import EntityForge.Proofs.Text.Tiling
import EntityForge.Schema.Token
import Mathlib

/-!
# Complete pieces of a schema

Words, braces, strings, comments and the bytes between them are described by their bytes and what
follows them: `Complete` by the one byte after them, `Whole` by the rest of the text, which may be
over. `divides` and `scans` say that this is what the scanner finds.
-/

namespace EntityForge.Schema

open Text

/-- What a piece of a schema is, and its bytes. -/
abbrev Piece := Kind × List UInt8

/-- Whether a byte stands for nothing. -/
def isOtherByte (b : UInt8) : Bool :=
  b != 0x22 && b != 0x7B && b != 0x7D && !isWordByte b

/-- Bytes that are a whole piece of a kind when a certain byte follows them. -/
inductive Complete : Kind → List UInt8 → UInt8 → Prop where
  | word {bs z} :
    bs ≠ [] →
    (∀ b ∈ bs, isWordByte b) →
    isWordByte z = false →
    Complete .word bs z
  | opening {z} :
    Complete .opening [0x7B] z
  | closing {z} :
    Complete .closing [0x7D] z
  | comment {body z} :
    0x0A ∉ body →
    z = 0x0A →
    Complete .comment (0x2F :: 0x2F :: body) z
  | quoted {body z} :
    LiteralBody 0x22 body →
    Complete .quoted (0x22 :: (body ++ [0x22])) z
  | other {b z} :
    isOtherByte b →
    (b = 0x2F → z ≠ 0x2F) →
    Complete .other [b] z

/-- A token that is no brace is a word. -/
lemma Kind.eq_word {k : Kind} (token : k.isToken) (opens : k ≠ .opening) (closes : k ≠ .closing) :
    k = .word := by
  cases k with
  | word => rfl
  | opening => exact absurd rfl opens
  | closing => exact absurd rfl closes
  | comment => cases token
  | quoted => cases token
  | other => cases token

/-- A byte that stands for nothing is no quotation mark, no brace and no part of a word. -/
lemma isOtherByte_iff {b : UInt8} :
    isOtherByte b ↔ b ≠ 0x22 ∧ b ≠ 0x7B ∧ b ≠ 0x7D ∧ isWordByte b = false := by
  simp [isOtherByte, and_assoc]

/-- A byte of a word is no quotation mark, no brace and no slash. -/
lemma of_isWordByte {b : UInt8} (h : isWordByte b) :
    b ≠ 0x2F ∧ b ≠ 0x22 ∧ b ≠ 0x7B ∧ b ≠ 0x7D := by
  refine ⟨?_, ?_, ?_, ?_⟩ <;>
  · rintro rfl
    exact absurd h (by decide)

/-- Bytes that are a whole piece of a kind when certain bytes follow them, or none. -/
inductive Whole : Kind → List UInt8 → List UInt8 → Prop where
  | word {bs rest} :
    bs ≠ [] →
    (∀ b ∈ bs, isWordByte b) →
    (∀ z, rest.head? = some z → isWordByte z = false) →
    Whole .word bs rest
  | opening {rest} :
    Whole .opening [0x7B] rest
  | closing {rest} :
    Whole .closing [0x7D] rest
  | comment {body rest} :
    0x0A ∉ body →
    (∀ z, rest.head? = some z → z = 0x0A) →
    Whole .comment (0x2F :: 0x2F :: body) rest
  | quoted {body rest} :
    LiteralBody 0x22 body →
    Whole .quoted (0x22 :: (body ++ [0x22])) rest
  /-- A string that is not closed. Its last byte may be a backslash that has nothing to take. -/
  | openQuoted {body} :
    (LiteralBody 0x22 body ∨ ∃ init, body = init ++ [0x5C] ∧ LiteralBody 0x22 init) →
    Whole .quoted (0x22 :: body) []
  | other {b rest} :
    isOtherByte b →
    (b = 0x2F → rest.head? ≠ some 0x2F) →
    Whole .other [b] rest

/-- The whole pieces before another byte are the complete ones. -/
lemma whole_cons_iff {k : Kind} {bs : List UInt8} {z : UInt8} {rest : List UInt8} :
    Whole k bs (z :: rest) ↔ Complete k bs z := by
  constructor
  · intro whole
    cases whole with
    | word ne inside stop => exact .word ne inside (stop z rfl)
    | opening => exact .opening
    | closing => exact .closing
    | comment oneLine stop => exact .comment oneLine (stop z rfl)
    | quoted inside => exact .quoted inside
    | other other stop => exact .other other (by simpa using stop)
  · intro complete
    cases complete with
    | word ne inside stop => exact .word ne inside (by simpa using stop)
    | opening => exact .opening
    | closing => exact .closing
    | comment oneLine stop => exact .comment oneLine (by simpa using stop)
    | quoted inside => exact .quoted inside
    | other other stop => exact .other other (by simpa using stop)

/-- A whole piece holds something. -/
lemma Whole.ne_nil {k : Kind} {bs rest : List UInt8} (whole : Whole k bs rest) : bs ≠ [] := by
  cases whole with
  | word ne => exact ne
  | _ => exact List.cons_ne_nil _ _

/-! ### The scanner -/

/-- The scanner takes no more bytes than there are. -/
lemma next_le (b : UInt8) (rest : List UInt8) : (next b rest).2 ≤ rest.length := by
  rw [next]
  split_ifs
  · exact runLength_le _ rest
  · exact quotedLength_le 0x22 rest
  · exact Nat.zero_le _
  · exact Nat.zero_le _
  · exact runLength_le _ rest
  · exact Nat.zero_le _

/-- Where the scanner finds a piece one is whole. -/
lemma whole_of_next {k : Kind} {b : UInt8} {part rest : List UInt8}
    (read : next b (part ++ rest) = (k, part.length)) : Whole k (b :: part) rest := by
  rw [next] at read
  split_ifs at read with line quote opens closes word
  · obtain ⟨rfl, size⟩ := Prod.mk.inj read
    obtain ⟨inside, stop⟩ := runLength_append_iff.mp size
    obtain ⟨rfl, head⟩ := line
    cases part with
    | nil => exact absurd (stop 0x2F head) (by decide)
    | cons c part =>
      cases head
      refine .comment (fun mem => ?_) fun z first => by simpa using stop z first
      simpa using inside _ (List.mem_cons_of_mem _ mem)
  · obtain ⟨rfl, size⟩ := Prod.mk.inj read
    obtain ⟨body, rfl, inside⟩ | ⟨rfl, inside⟩ := (quotedLength_append_iff (by decide)).mp size
    · exact quote ▸ .quoted inside
    · exact quote ▸ .openQuoted inside
  · obtain ⟨rfl, size⟩ := Prod.mk.inj read
    obtain rfl := List.length_eq_zero_iff.mp size.symm
    exact opens ▸ .opening
  · obtain ⟨rfl, size⟩ := Prod.mk.inj read
    obtain rfl := List.length_eq_zero_iff.mp size.symm
    exact closes ▸ .closing
  · obtain ⟨rfl, size⟩ := Prod.mk.inj read
    obtain ⟨inside, stop⟩ := runLength_append_iff.mp size
    exact .word (List.cons_ne_nil _ _) (List.forall_mem_cons.mpr ⟨word, inside⟩) stop
  · obtain ⟨rfl, size⟩ := Prod.mk.inj read
    obtain rfl := List.length_eq_zero_iff.mp size.symm
    refine .other (isOtherByte_iff.mpr ⟨quote, opens, closes, Bool.not_eq_true _ ▸ word⟩) ?_
    exact fun slash head => line ⟨slash, head⟩

/-- Where a piece is whole the scanner finds it. -/
lemma Whole.next_eq {k : Kind} {b : UInt8} {part rest : List UInt8}
    (whole : Whole k (b :: part) rest) : next b (part ++ rest) = (k, part.length) := by
  cases whole with
  | word _ inside stop =>
    obtain ⟨word, inside⟩ := List.forall_mem_cons.mp inside
    obtain ⟨slash, quote, opens, closes⟩ := of_isWordByte word
    simp only [next, slash, quote, opens, closes, word, false_and, if_false, if_true,
      runLength_append_iff.mpr ⟨inside, stop⟩]
  | opening => rfl
  | closing => rfl
  | @comment body _ oneLine stop =>
    have inside : ∀ c ∈ 0x2F :: body, (c != 0x0A) = true := by
      intro c mem
      cases mem with
      | head => decide
      | tail _ mem => exact bne_iff_ne.mpr fun e => oneLine (e ▸ mem)
    simp only [next, List.cons_append, List.head?_cons, and_self, if_true]
    refine congrArg _ (runLength_append_iff.mpr ⟨inside, fun z first => ?_⟩)
    rw [stop z first]
    rfl
  | quoted inside =>
    have size := (@quotedLength_append_iff 0x22 (by decide) _ rest).mpr (.inl ⟨_, rfl, inside⟩)
    simp only [next, size, if_true]
    rfl
  | openQuoted inside =>
    have size := (@quotedLength_append_iff 0x22 (by decide) _ []).mpr (.inr ⟨rfl, inside⟩)
    simp only [next, size, if_true]
    rfl
  | other other stop =>
    obtain ⟨quote, opens, closes, word⟩ := isOtherByte_iff.mp other
    have line : ¬ (b = 0x2F ∧ rest.head? = some 0x2F) := fun both => stop both.1 both.2
    simp only [next, List.nil_append, line, quote, opens, closes, word, if_false,
      Bool.false_eq_true, List.length_nil]

/-- The scanner of a schema divides texts into whole pieces. -/
lemma divides : Divides next Whole where
  bounded := next_le
  whole := fun _ _ _ _ => ⟨whole_of_next, Whole.next_eq⟩
  ne_nil := fun _ _ whole => whole.ne_nil rfl

/-- What the scanner of a schema finds are the complete pieces. -/
lemma scans : Scans next Complete :=
  divides.scans whole_cons_iff

end EntityForge.Schema

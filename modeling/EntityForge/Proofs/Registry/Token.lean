import EntityForge.Proofs.Text.Extent
import EntityForge.Proofs.Text.Tiling
import EntityForge.Registry.Token
import Mathlib

/-!
# Complete pieces of a registry

Words, literals, comments and the other pieces of a registry are described by their bytes and the
one byte after them. `scans` says that this is what the scanner finds. At the end of a text a literal
or a block comment may be left open, which `Whole` allows for.
-/

namespace EntityForge.Registry

open Text

/-- What a piece of a registry is, and its bytes. -/
abbrev Piece := Kind × List UInt8

/-- Whether a byte is a punctuation mark. -/
def isMarkByte (b : UInt8) : Bool :=
  !isQuote b && !isSpaceByte b && !isIdentifierByte b

/-- What can stand between the ends of a block comment. -/
def CommentBody : List UInt8 → Prop
  | b :: c :: rest => ¬ (b = 0x2A ∧ c = 0x2F) ∧ CommentBody (c :: rest)
  | _ => True

/-- Bytes that are a whole piece of a kind when a certain byte follows them. -/
inductive Complete : Kind → List UInt8 → UInt8 → Prop where
  | word {bs z} :
    bs ≠ [] →
    (∀ b ∈ bs, isIdentifierByte b) →
    isIdentifierByte z = false →
    Complete .word bs z
  | punctuation {b z} :
    isMarkByte b →
    (b = 0x2F → z ≠ 0x2F ∧ z ≠ 0x2A) →
    Complete .punctuation [b] z
  | literal {quote body z} :
    isQuote quote →
    LiteralBody quote body →
    Complete .literal (quote :: (body ++ [quote])) z
  | lineComment {body z} :
    0x0A ∉ body →
    z = 0x0A →
    Complete .lineComment (0x2F :: 0x2F :: body) z
  | blockComment {body z} :
    CommentBody body →
    Complete .blockComment (0x2F :: 0x2A :: (body ++ [0x2A, 0x2F])) z
  | space {b z} :
    isSpaceByte b →
    Complete .space [b] z

/-- A block comment ends with a slash. -/
lemma getLast?_blockComment (body : List UInt8) :
    (0x2F :: 0x2A :: (body ++ [0x2A, 0x2F])).getLast? = some (0x2F : UInt8) := by
  rw [List.append_cons, ← List.cons_append, ← List.cons_append, List.getLast?_concat]

/-! ### Classes of bytes -/

/-- The quotes are the double one, the single one and the backtick. -/
lemma isQuote_iff {b : UInt8} : isQuote b ↔ b = 0x22 ∨ b = 0x27 ∨ b = 0x60 := by
  simp [isQuote, or_assoc]

/-- The white bytes are the space, the tab, the line feed, the form feed and the carriage return. -/
lemma isSpaceByte_iff {b : UInt8} :
    isSpaceByte b ↔ b = 0x20 ∨ b = 0x9 ∨ b = 0xA ∨ b = 0xC ∨ b = 0xD := by
  simp [isSpaceByte, or_assoc]

/-- A byte of an identifier is no quotation mark, no white space and no slash. -/
lemma of_isIdentifierByte {b : UInt8} (h : isIdentifierByte b) :
    isQuote b = false ∧ isSpaceByte b = false ∧ b ≠ 0x2F := by
  refine ⟨?_, ?_, ?_⟩
  · by_contra quote
    obtain rfl | rfl | rfl := isQuote_iff.mp (Bool.not_eq_false _ ▸ quote) <;> revert h <;> decide
  · by_contra space
    obtain rfl | rfl | rfl | rfl | rfl := isSpaceByte_iff.mp (Bool.not_eq_false _ ▸ space) <;>
      revert h <;> decide
  · rintro rfl
    revert h
    decide

/-- All bytes beyond ASCII can stand in an identifier. -/
lemma isIdentifierByte_of_le {b : UInt8} (high : 0x80 ≤ b) : isIdentifierByte b := by
  rw [isIdentifierByte, decide_eq_true high, Bool.or_true]

/-- A byte that cannot stand in an identifier is below `0x80`. -/
lemma lt_of_not_isIdentifierByte {b : UInt8} (other : isIdentifierByte b = false) : b < 0x80 := by
  rw [isIdentifierByte, Bool.or_eq_false_iff, decide_eq_false_iff_not] at other
  exact UInt8.not_le.mp other.2

/-- White space is no quotation mark and no slash. -/
lemma of_isSpaceByte {b : UInt8} (h : isSpaceByte b) :
    isQuote b = false ∧ isIdentifierByte b = false ∧ b ≠ 0x2F := by
  obtain rfl | rfl | rfl | rfl | rfl := isSpaceByte_iff.mp h <;> decide

/-- A quotation mark is no backslash and no slash. -/
lemma of_isQuote {b : UInt8} (h : isQuote b) : b ≠ 0x5C ∧ b ≠ 0x2F := by
  obtain rfl | rfl | rfl := isQuote_iff.mp h <;> decide

/-- A punctuation mark is neither a quote nor white nor part of an identifier. -/
lemma isMarkByte_iff {b : UInt8} :
    isMarkByte b ↔ isQuote b = false ∧ isSpaceByte b = false ∧ isIdentifierByte b = false := by
  simp [isMarkByte, and_assoc]

/-- Before a byte of an identifier a piece ends with a byte that is none. -/
lemma Complete.exists_concat {k : Kind} {bs : List UInt8} {z : UInt8} (complete : Complete k bs z)
    (word : isIdentifierByte z) : ∃ init b, bs = init ++ [b] ∧ isIdentifierByte b = false := by
  cases complete with
  | word _ _ stop =>
    rw [word] at stop
    cases stop
  | @punctuation b _ mark => exact ⟨[], b, rfl, (isMarkByte_iff.mp mark).2.2⟩
  | @literal quote body _ isQuote =>
    refine ⟨quote :: body, quote, rfl, ?_⟩
    obtain rfl | rfl | rfl := isQuote_iff.mp isQuote <;> decide
  | lineComment _ line =>
    rw [line] at word
    exact absurd word (by decide)
  | @blockComment body => exact ⟨0x2F :: 0x2A :: (body ++ [0x2A]), 0x2F, by simp, by decide⟩
  | @space b _ space => exact ⟨[], b, rfl, (of_isSpaceByte space).2.1⟩

/-! ### Lengths -/

/-- A star and a slash end what a block comment holds. -/
lemma exists_comment_mark {rest : List UInt8} :
    (∃ body, 0x2A :: 0x2F :: rest = body ++ [0x2A, 0x2F] ∧ CommentBody body) ↔ rest = [] := by
  constructor
  · rintro ⟨body, e, inside⟩
    match body with
    | [] => cases e; rfl
    | [d] => cases e
    | d :: f :: body => cases e; exact absurd ⟨rfl, rfl⟩ inside.1
  · rintro rfl
    exact ⟨[], rfl, trivial⟩

/-- A comment that does not end at once ends behind its first byte. -/
lemma exists_comment_cons {b c : UInt8} {rest : List UInt8} (open_ : ¬ (b = 0x2A ∧ c = 0x2F)) :
    (∃ body, b :: c :: rest = body ++ [0x2A, 0x2F] ∧ CommentBody body) ↔
      ∃ body, c :: rest = body ++ [0x2A, 0x2F] ∧ CommentBody body := by
  constructor
  · rintro ⟨body, e, inside⟩
    match body with
    | [] => cases e; exact absurd ⟨rfl, rfl⟩ open_
    | [d] => cases e; exact ⟨[], rfl, trivial⟩
    | d :: f :: body => cases e; exact ⟨_ :: body, rfl, inside.2⟩
  · rintro ⟨body, e, inside⟩
    refine ⟨b :: body, by rw [e]; rfl, ?_⟩
    cases body with
    | nil => trivial
    | cons d body => cases e; exact ⟨open_, inside⟩

/-- A block comment ends with the first star and slash. -/
lemma commentLength_eq_iff {part rest : List UInt8} {z : UInt8} :
    commentLength (part ++ z :: rest) = part.length ↔
      ∃ body, part = body ++ [0x2A, 0x2F] ∧ CommentBody body := by
  have pos : 0 < commentLength (z :: rest) := by
    cases rest with
    | nil => exact Nat.one_pos
    | cons c rest =>
      rw [commentLength]
      split_ifs <;> omega
  fun_induction CommentBody part with
  | case1 b c part ih =>
    simp only [List.cons_append, commentLength, List.length_cons]
    rw [List.cons_append, List.length_cons] at ih
    split_ifs with close
    · obtain ⟨rfl, rfl⟩ := close
      rw [exists_comment_mark, ← List.length_eq_zero_iff]
      omega
    · rw [exists_comment_cons close]
      exact Iff.trans (by omega) ih
  | case2 part short =>
    match part, short with
    | [], _ => simpa using pos.ne'
    | [b], _ =>
      simp only [List.cons_append, List.nil_append, commentLength, List.length_singleton]
      refine iff_of_false (by split_ifs <;> omega) ?_
      rintro ⟨body, e, -⟩
      cases body <;> simp at e
    | b :: c :: part, short => exact absurd rfl (short b c part)

/-- A block comment reaches to the end of a text if its star and slash come last, or not at all. -/
lemma commentLength_eq_length {part : List UInt8} : commentLength part = part.length ↔
    (∃ body, part = body ++ [0x2A, 0x2F] ∧ CommentBody body) ∨ CommentBody part := by
  fun_induction CommentBody part with
  | case1 b c part ih =>
    simp only [commentLength, List.length_cons] at ih ⊢
    split_ifs with close
    · obtain ⟨rfl, rfl⟩ := close
      rw [exists_comment_mark, ← List.length_eq_zero_iff]
      simp
    · rw [exists_comment_cons close, and_iff_right close, ← ih]
      omega
  | case2 part short =>
    refine iff_of_true ?_ (.inr trivial)
    match part, short with
    | [], _ => rfl
    | [b], _ => rfl
    | b :: c :: part, short => exact absurd rfl (short b c part)

/-- What can be read as a block comment behind its first two bytes when certain bytes follow it, or
none. -/
lemma commentLength_append_iff {part rest : List UInt8} :
    commentLength (part ++ rest) = part.length ↔
      (∃ body, part = body ++ [0x2A, 0x2F] ∧ CommentBody body) ∨ rest = [] ∧ CommentBody part := by
  cases rest with
  | nil => rw [List.append_nil, commentLength_eq_length, eq_self_iff_true, true_and]
  | cons z rest => simp [commentLength_eq_iff]

/-! ### Whole pieces -/

/-- Bytes that are a whole piece of a kind when certain bytes follow them, or none. -/
inductive Whole : Kind → List UInt8 → List UInt8 → Prop where
  | word {bs rest} :
    bs ≠ [] →
    (∀ b ∈ bs, isIdentifierByte b) →
    (∀ z, rest.head? = some z → isIdentifierByte z = false) →
    Whole .word bs rest
  | punctuation {b rest} :
    isMarkByte b →
    (b = 0x2F → rest.head? ≠ some 0x2F ∧ rest.head? ≠ some 0x2A) →
    Whole .punctuation [b] rest
  | literal {quote body rest} :
    isQuote quote →
    LiteralBody quote body →
    Whole .literal (quote :: (body ++ [quote])) rest
  /-- A literal that is not closed. Its last byte may be a backslash that has nothing to take. -/
  | openLiteral {quote body} :
    isQuote quote →
    (LiteralBody quote body ∨ ∃ init, body = init ++ [0x5C] ∧ LiteralBody quote init) →
    Whole .literal (quote :: body) []
  | lineComment {body rest} :
    0x0A ∉ body →
    (∀ z, rest.head? = some z → z = 0x0A) →
    Whole .lineComment (0x2F :: 0x2F :: body) rest
  | blockComment {body rest} :
    ¬ [0x2A, 0x2F] <:+: body →
    Whole .blockComment (0x2F :: 0x2A :: (body ++ [0x2A, 0x2F])) rest
  /-- A block comment that is not closed. -/
  | openComment {body} :
    ¬ [0x2A, 0x2F] <:+: body →
    Whole .blockComment (0x2F :: 0x2A :: body) []
  | space {b rest} :
    isSpaceByte b →
    Whole .space [b] rest

/-- A block comment holds no star that is followed by a slash. -/
lemma commentBody_iff {body : List UInt8} : CommentBody body ↔ ¬ [0x2A, 0x2F] <:+: body := by
  fun_induction CommentBody body with
  | case1 b c rest ih =>
    rw [ih, @List.infix_cons_iff _ _ b, not_or]
    refine and_congr_left' ?_
    simp [eq_comm]
  | case2 body short =>
    refine iff_of_true trivial fun h => ?_
    match body, short with
    | [], _ => simp at h
    | [b], _ => simpa using h.length_le
    | b :: c :: rest, short => exact short b c rest rfl

/-- The whole pieces before another byte are the complete ones. -/
lemma whole_cons_iff {k : Kind} {bs : List UInt8} {z : UInt8} {rest : List UInt8} :
    Whole k bs (z :: rest) ↔ Complete k bs z := by
  constructor
  · intro whole
    cases whole with
    | word ne inside stop => exact .word ne inside (stop z rfl)
    | punctuation mark stop => exact .punctuation mark (by simpa using stop)
    | literal quote inside => exact .literal quote inside
    | lineComment oneLine stop => exact .lineComment oneLine (stop z rfl)
    | blockComment inside => exact .blockComment (commentBody_iff.mpr inside)
    | space space => exact .space space
  · intro complete
    cases complete with
    | word ne inside stop => exact .word ne inside (by simpa using stop)
    | punctuation mark stop => exact .punctuation mark (by simpa using stop)
    | literal quote inside => exact .literal quote inside
    | lineComment oneLine stop => exact .lineComment oneLine (by simpa using stop)
    | blockComment inside => exact .blockComment (commentBody_iff.mp inside)
    | space space => exact .space space

/-- A whole piece holds something. -/
lemma Whole.ne_nil {k : Kind} {bs rest : List UInt8} (whole : Whole k bs rest) : bs ≠ [] := by
  cases whole with
  | word ne => exact ne
  | _ => exact List.cons_ne_nil _ _

/-! ### The scanner -/

/-- A comment is no longer than the text. -/
lemma commentLength_le (rest : List UInt8) : commentLength rest ≤ rest.length := by
  fun_induction commentLength rest with
  | case1 => exact Nat.le_refl 0
  | case2 => exact Nat.le_refl 1
  | case3 => simp only [List.length_cons]; omega
  | case4 b c rest _ ih => simp only [List.length_cons] at ih ⊢; omega

/-- The scanner takes no more bytes than there are. -/
lemma next_le (b : UInt8) (rest : List UInt8) : (next b rest).2 ≤ rest.length := by
  rw [next]
  split_ifs with line block
  · exact runLength_le _ rest
  · obtain ⟨rest, rfl⟩ : ∃ more, rest = 0x2A :: more := List.head?_eq_some_iff.mp block.2
    have := commentLength_le rest
    simp only [List.tail_cons, List.length_cons]
    omega
  · exact quotedLength_le b rest
  · exact Nat.zero_le _
  · exact runLength_le _ rest
  · exact Nat.zero_le _

/-- Where the scanner finds a piece one is whole. -/
lemma whole_of_next {k : Kind} {b : UInt8} {part rest : List UInt8}
    (read : next b (part ++ rest) = (k, part.length)) : Whole k (b :: part) rest := by
  rw [next] at read
  split_ifs at read with line block quote space word
  · obtain ⟨rfl, size⟩ := Prod.mk.inj read
    obtain ⟨inside, stop⟩ := runLength_append_iff.mp size
    obtain ⟨rfl, head⟩ := line
    cases part with
    | nil => exact absurd (stop 0x2F head) (by decide)
    | cons c part =>
      cases head
      refine .lineComment (fun mem => ?_) fun z first => by simpa using stop z first
      simpa using inside _ (List.mem_cons_of_mem _ mem)
  · obtain ⟨rfl, size⟩ := Prod.mk.inj read
    obtain ⟨rfl, head⟩ := block
    cases part with
    | nil => simp at size
    | cons c part =>
      cases head
      simp only [List.cons_append, List.tail_cons, List.length_cons] at size
      obtain ⟨body, rfl, inside⟩ | ⟨rfl, inside⟩ :=
        commentLength_append_iff.mp (show commentLength (part ++ rest) = part.length by omega)
      · exact .blockComment (commentBody_iff.mp inside)
      · exact .openComment (commentBody_iff.mp inside)
  · obtain ⟨rfl, size⟩ := Prod.mk.inj read
    obtain ⟨body, rfl, inside⟩ | ⟨rfl, inside⟩ :=
      (quotedLength_append_iff (of_isQuote quote).1).mp size
    · exact .literal quote inside
    · exact .openLiteral quote inside
  · obtain ⟨rfl, size⟩ := Prod.mk.inj read
    obtain rfl := List.length_eq_zero_iff.mp size.symm
    exact .space space
  · obtain ⟨rfl, size⟩ := Prod.mk.inj read
    obtain ⟨inside, stop⟩ := runLength_append_iff.mp size
    exact .word (List.cons_ne_nil _ _) (List.forall_mem_cons.mpr ⟨word, inside⟩) stop
  · obtain ⟨rfl, size⟩ := Prod.mk.inj read
    obtain rfl := List.length_eq_zero_iff.mp size.symm
    refine .punctuation ?_ ?_
    · simp only [Bool.not_eq_true] at quote space word
      exact isMarkByte_iff.mpr ⟨quote, space, word⟩
    · rintro rfl
      exact ⟨fun head => line ⟨rfl, head⟩, fun head => block ⟨rfl, head⟩⟩

/-- Where a piece is whole the scanner finds it. -/
lemma Whole.next_eq {k : Kind} {b : UInt8} {part rest : List UInt8}
    (whole : Whole k (b :: part) rest) : next b (part ++ rest) = (k, part.length) := by
  cases whole with
  | word _ inside stop =>
    obtain ⟨word, inside⟩ := List.forall_mem_cons.mp inside
    obtain ⟨quote, space, slash⟩ := of_isIdentifierByte word
    simp only [next, slash, quote, space, word, false_and, if_false, if_true,
      Bool.false_eq_true, runLength_append_iff.mpr ⟨inside, stop⟩]
  | punctuation mark stop =>
    obtain ⟨quote, space, word⟩ := isMarkByte_iff.mp mark
    have line : ¬ (b = 0x2F ∧ rest.head? = some 0x2F) := fun both => (stop both.1).1 both.2
    have block : ¬ (b = 0x2F ∧ rest.head? = some 0x2A) := fun both => (stop both.1).2 both.2
    simp only [next, List.nil_append, line, block, quote, space, word, if_false,
      Bool.false_eq_true, List.length_nil]
  | literal quote inside =>
    obtain ⟨escape, slash⟩ := of_isQuote quote
    simp only [next, slash, quote, false_and, if_false, if_true,
      (quotedLength_append_iff escape).mpr (.inl ⟨_, rfl, inside⟩)]
  | openLiteral quote inside =>
    obtain ⟨escape, slash⟩ := of_isQuote quote
    simp only [next, slash, quote, false_and, if_false, if_true,
      (quotedLength_append_iff escape).mpr (.inr ⟨rfl, inside⟩)]
  | @lineComment body _ oneLine stop =>
    have inside : ∀ c ∈ 0x2F :: body, (c != 0x0A) = true := by
      intro c mem
      cases mem with
      | head => decide
      | tail _ mem => exact bne_iff_ne.mpr fun e => oneLine (e ▸ mem)
    simp only [next, List.cons_append, List.head?_cons, and_self, if_true]
    refine congrArg _ (runLength_append_iff.mpr ⟨inside, fun z first => ?_⟩)
    rw [stop z first]
    rfl
  | @blockComment body _ inside =>
    have size := (@commentLength_append_iff _ rest).mpr
      (.inl ⟨body, rfl, commentBody_iff.mpr inside⟩)
    simp only [next, List.cons_append, List.head?_cons, List.tail_cons, Option.some.injEq,
      true_and, if_true, List.length_cons]
    rw [if_neg (by decide), size, Nat.add_comm]
  | @openComment body inside =>
    have size := (@commentLength_append_iff body []).mpr (.inr ⟨rfl, commentBody_iff.mpr inside⟩)
    simp only [next, List.cons_append, List.head?_cons, List.tail_cons, Option.some.injEq,
      true_and, if_true, List.length_cons]
    rw [if_neg (by decide), size, Nat.add_comm]
  | space space =>
    obtain ⟨quote, word, slash⟩ := of_isSpaceByte space
    simp only [next, slash, quote, space, false_and, if_false, if_true, Bool.false_eq_true,
      List.length_nil]

/-- The scanner finds a piece where one is whole, and nowhere else. -/
lemma next_append_iff (k : Kind) (b : UInt8) (part rest : List UInt8) :
    next b (part ++ rest) = (k, part.length) ↔ Whole k (b :: part) rest :=
  ⟨whole_of_next, Whole.next_eq⟩

/-- The scanner of a registry divides texts into whole pieces. -/
lemma divides : Divides next Whole where
  bounded := next_le
  whole := next_append_iff
  ne_nil := fun _ _ whole => whole.ne_nil rfl

/-- What the scanner of a registry finds are the complete pieces. -/
lemma scans : Scans next Complete :=
  divides.scans whole_cons_iff

end EntityForge.Registry

import EntityForge.Proofs.Registry.Token
import EntityForge.Proofs.Text.Bytes
import EntityForge.Text.Blank
import Mathlib

/-!
# Between the tokens

White space and comments lie between the tokens of a registry. Such a gap can lose the white space
at its end, and what of it has no comment is white space.
-/

namespace EntityForge.Registry

open Text

/-- Pieces of which none is code. -/
def IsGap (ps : List Piece) : Prop :=
  ∀ p ∈ ps, p.1.isCode = false

/-- Nothing is a gap. -/
lemma isGap_nil : IsGap [] := by
  intro p mem
  cases mem

/-- A gap is a piece that is no code before another gap. -/
lemma isGap_cons {p : Piece} {ps : List Piece} :
    IsGap (p :: ps) ↔ p.1.isCode = false ∧ IsGap ps :=
  List.forall_mem_cons

/-- A gap has no code. -/
lemma IsGap.filter_eq_nil {ps : List Piece} (h : IsGap ps) :
    ps.filter (·.1.isCode) = [] := by
  refine List.filter_eq_nil_iff.mpr fun p mem => ?_
  rw [h p mem]
  decide

/-- A gap begins with white space or the slash of a comment. -/
lemma lead_of_isGap {ps : List Piece} {z : UInt8} (gap : IsGap ps)
    (chained : Chained Complete ps z) (ne : ps ≠ []) :
    isSpaceByte (lead ps z) ∨ lead ps z = 0x2F := by
  cases ps with
  | nil => exact absurd rfl ne
  | cons p ps =>
    obtain ⟨k, bs⟩ := p
    have code := (isGap_cons.mp gap).1
    cases chained.1 with
    | word | punctuation | literal => cases code
    | lineComment | blockComment => exact .inr rfl
    | space space => exact .inl space

/-- What follows a token as a gap and then `z` does not belong to an identifier. -/
lemma isIdentifierByte_lead {ps : List Piece} {z : UInt8} (gap : IsGap ps)
    (chained : Chained Complete ps z) (hz : isIdentifierByte z = false) :
    isIdentifierByte (lead ps z) = false := by
  by_cases ne : ps = []
  · rw [ne]
    exact hz
  · obtain space | slash := lead_of_isGap gap chained ne
    · exact (of_isSpaceByte space).2.1
    · rw [slash]
      decide

/-- A gap begins with an ASCII character. -/
lemma lead_lt {ps : List Piece} {z : UInt8} (gap : IsGap ps) (chained : Chained Complete ps z)
    (hz : z < 0x80) : lead ps z < 0x80 := by
  by_cases ne : ps = []
  · rw [ne]
    exact hz
  · obtain space | slash := lead_of_isGap gap chained ne
    · exact lt_of_not_isIdentifierByte (of_isSpaceByte space).2.1
    · rw [slash]
      decide

/-- Code can be followed by white space or a comma as well as by what follows it. -/
lemma Complete.change {k : Kind} {bs : List UInt8} {z x : UInt8} (complete : Complete k bs z)
    (code : k.isCode) (hx : x = 0x2C ∨ isSpaceByte x) : Complete k bs x := by
  have other : isIdentifierByte x = false ∧ x ≠ 0x2F ∧ x ≠ 0x2A := by
    obtain rfl | space := hx
    · decide
    · obtain rfl | rfl | rfl | rfl | rfl := isSpaceByte_iff.mp space <;> decide
  cases complete with
  | word ne inside _ => exact .word ne inside other.1
  | punctuation mark _ => exact .punctuation mark fun _ => other.2
  | literal quote inside => exact .literal quote inside
  | lineComment | blockComment | space => cases code

/-- Code at the end of a text can be followed by white space or a comma as well as by what follows
it. -/
lemma chained_change {ps : List Piece} {p : Piece} {z x : UInt8}
    (chained : Chained Complete (ps ++ [p]) z) (code : p.1.isCode)
    (hx : x = 0x2C ∨ isSpaceByte x) : Chained Complete (ps ++ [p]) x := by
  obtain ⟨k, bs⟩ := p
  obtain ⟨others, last, -⟩ := chained_append.mp chained
  cases bs with
  | nil => exact absurd last (scans.ne_nil k z)
  | cons b bs => exact chained_append.mpr ⟨others, last.change code hx, trivial⟩

/-! ### Trimming -/

/-- Where a part of a text begins, the text begins, unless the part is empty. -/
private lemma lead_eq_of_append {ps qs : List Piece} {z x : UInt8} {dropped : List UInt8}
    (h : spell ps = spell qs ++ dropped) : lead qs x = lead ps z ∨ lead qs x = x := by
  rw [lead, lead, h]
  cases spell qs with
  | nil => exact .inr rfl
  | cons b bs => exact .inl rfl

/-- What is no code can be followed by another byte, unless it needs a line feed to end it. -/
private lemma Complete.follow {k : Kind} {bs : List UInt8} {z x : UInt8} (complete : Complete k bs z)
    (code : k.isCode = false) (hx : z = 0x0A → x = 0x0A) : Complete k bs x := by
  cases complete with
  | word | punctuation | literal => cases code
  | lineComment clean stop => exact .lineComment clean (hx stop)
  | blockComment inside => exact .blockComment inside
  | space space => exact .space space

/-- What is left of a piece of a gap that has lost bytes without a slash at its end is a gap before a
line feed: if it has lost any, it was a comment up to the end of the line. -/
private lemma exists_gap_of_piece {k : Kind} {kept lost : List UInt8} {z : UInt8}
    (complete : Complete k (kept ++ lost) z) (code : k.isCode = false) (slash : 0x2F ∉ lost) :
    ∃ qs, IsGap qs ∧ Chained Complete qs 0x0A ∧ spell qs = kept := by
  by_cases all : lost = []
  · rw [all, List.append_nil] at complete
    exact ⟨[(k, kept)], isGap_cons.mpr ⟨code, isGap_nil⟩, ⟨complete.follow code fun _ => rfl, trivial⟩,
      List.append_nil _⟩
  generalize e : kept ++ lost = bs at complete
  cases complete with
  | word | punctuation | literal => cases code
  | @lineComment body z clean stop =>
    match kept with
    | [] => exact ⟨[], isGap_nil, trivial, rfl⟩
    | [b] =>
      cases e
      exact absurd List.mem_cons_self slash
    | b :: c :: kept =>
      cases e
      exact ⟨[(.lineComment, 0x2F :: 0x2F :: kept)], isGap_cons.mpr ⟨rfl, isGap_nil⟩,
        ⟨.lineComment (fun mem => clean (List.mem_append_left _ mem)) rfl, trivial⟩,
        List.append_nil _⟩
  | @blockComment body z inside =>
    -- The slash at its end would be among the bytes that are lost.
    have last := getLast?_blockComment body
    have e : 0x2F :: 0x2A :: (body ++ [0x2A, 0x2F]) = kept ++ lost := e.symm
    rw [e, List.getLast?_append_of_ne_nil _ all] at last
    exact absurd (List.mem_of_getLast? last) slash
  | @space b z space =>
    cases kept with
    | nil => exact ⟨[], isGap_nil, trivial, rfl⟩
    | cons c kept =>
      have size := congrArg List.length e
      have pos := List.length_pos_iff.mpr all
      simp only [List.length_cons, List.length_append, List.length_nil] at size
      omega

/-- A gap that has lost bytes without a slash at its end is a gap before a line feed. -/
lemma exists_gap_of_append {ps : List Piece} {z : UInt8} {kept dropped : List UInt8}
    (gap : IsGap ps) (chained : Chained Complete ps z) (split : spell ps = kept ++ dropped)
    (slash : 0x2F ∉ dropped) :
    ∃ qs, IsGap qs ∧ Chained Complete qs 0x0A ∧ spell qs = kept := by
  induction ps generalizing kept with
  | nil =>
    obtain ⟨rfl, -⟩ := List.append_eq_nil_iff.mp split.symm
    exact ⟨[], isGap_nil, trivial, rfl⟩
  | cons p ps ih =>
    obtain ⟨k, bs⟩ := p
    obtain ⟨first, others⟩ := chained
    obtain ⟨code, gap⟩ := isGap_cons.mp gap
    obtain ⟨more, e, rest⟩ | ⟨lost, e, rest⟩ := List.append_eq_append_iff.mp split
    · -- The first piece is kept as a whole.
      have e : kept = bs ++ more := e
      obtain ⟨qs, hqs, chained, spelled⟩ := ih gap others rest
      rw [← spelled] at rest
      have first : Complete k bs (lead qs 0x0A) := first.follow code fun stop =>
        (lead_eq_of_append rest).elim (·.trans stop) id
      exact ⟨(k, bs) :: qs, isGap_cons.mpr ⟨code, hqs⟩, ⟨first, chained⟩, by rw [e, ← spelled]; rfl⟩
    · have first : Complete k (kept ++ lost) (lead ps z) := by
        rw [← show bs = kept ++ lost from e]
        exact first
      exact exists_gap_of_piece first code fun mem => slash (rest ▸ List.mem_append_left _ mem)

/-! ### Text without comments -/

/-- Whether no comment begins in a text. -/
def NoComment (s : List Char) : Prop :=
  s.IsChain fun c d => c = '/' → d ≠ '/' ∧ d ≠ '*'

/-- A text without slashes has no comment. -/
lemma noComment_of_not_mem {s : List Char} (h : '/' ∉ s) : NoComment s := by
  rw [NoComment, List.isChain_iff_forall_rel_of_append_cons_cons]
  rintro c d front rest rfl rfl
  exact absurd (by simp) h

/-- A text has no comment if neither mark of one occurs in it. -/
lemma noComment_iff {s : List Char} :
    NoComment s ↔ ¬ "//".toList <:+: s ∧ ¬ "/*".toList <:+: s := by
  rw [NoComment, List.isChain_iff_forall_rel_of_append_cons_cons]
  constructor
  · intro h
    constructor
    · rintro ⟨front, rest, e⟩
      have split : s = front ++ '/' :: '/' :: rest := by rw [← e]; simp
      exact (h split rfl).1 rfl
    · rintro ⟨front, rest, e⟩
      have split : s = front ++ '/' :: '*' :: rest := by rw [← e]; simp
      exact (h split rfl).2 rfl
  · rintro ⟨line, block⟩ c d front rest e rfl
    constructor
    · rintro rfl
      exact line ⟨front, rest, by rw [e]; simp⟩
    · rintro rfl
      exact block ⟨front, rest, by rw [e]; simp⟩

/-- Parts without a comment make up a text without one if the first does not end with a slash. -/
lemma NoComment.append {s t : List Char} (hs : NoComment s) (ht : NoComment t)
    (edge : s.getLast? ≠ some '/') : NoComment (s ++ t) := by
  refine List.IsChain.append hs ht ?_
  rintro c last d - rfl
  exact absurd last edge

/-- A byte of white space is a character of white space. -/
lemma exists_blank {b : UInt8} (h : isSpaceByte b) :
    ∃ c : Char, c.toNat < 0x80 ∧ b = c.toUInt8 ∧ isBlank c := by
  obtain rfl | rfl | rfl | rfl | rfl := isSpaceByte_iff.mp h
  · exact ⟨' ', by decide⟩
  · exact ⟨'\t', by decide⟩
  · exact ⟨'\n', by decide⟩
  · exact ⟨'\x0C', by decide⟩
  · exact ⟨'\r', by decide⟩

/-- Outside the code a lexeme ends with the slash of a comment, before a line feed or as white
space. -/
lemma Complete.getLast?_or {k : Kind} {bs : List UInt8} {z : UInt8} (h : Complete k bs z)
    (gap : k.isCode = false) :
    bs.getLast? = some 0x2F ∨ z = 0x0A ∨
      ∃ c : Char, c.toNat < 0x80 ∧ bs.getLast? = some c.toUInt8 ∧ isBlank c := by
  cases h with
  | word | punctuation | literal => cases gap
  | blockComment => exact .inl (getLast?_blockComment _)
  | lineComment _ stop => exact .inr (.inl stop)
  | space space =>
    obtain ⟨c, ascii, rfl, blank⟩ := exists_blank space
    exact .inr (.inr ⟨c, ascii, rfl, blank⟩)

/-- What comes first in a gap, up to a line feed, is white space if no comment begins in it. -/
lemma isBlank_of_isGap {ps : List Piece} {z : UInt8} {s : List Char} {more : List UInt8}
    (gap : IsGap ps) (chained : Chained Complete ps z) (spelled : spell ps = bytes s ++ 0x0A :: more)
    (none : NoComment s) : ∀ c ∈ s, isBlank c := by
  induction ps generalizing s with
  | nil => simp at spelled
  | cons p ps ih =>
    cases s with
    | nil => simp
    | cons c s =>
      obtain ⟨k, bs⟩ := p
      obtain ⟨code, gapRest⟩ := isGap_cons.mp gap
      obtain ⟨first, others⟩ := chained
      rw [bytes_cons, List.append_assoc] at spelled
      -- The first two characters of a comment would be those of the text.
      have noMark {d : Char} (ascii : d.toNat < 0x80) (mark : d = '/' ∨ d = '*')
          {rest : List UInt8} (e : bytes s ++ 0x0A :: more = d.toUInt8 :: rest) (hc : c = '/') :
          False := by
        cases s with
        | nil =>
          have same := (List.cons.inj e).1
          obtain rfl | rfl := mark <;> revert same <;> decide
        | cons d' s =>
          rw [bytes_cons, List.append_assoc] at e
          obtain ⟨rfl, -⟩ := eq_cons_of_bytes_append ascii e
          have next := (List.isChain_cons_cons.mp none).1 hc
          obtain rfl | rfl := mark
          · exact next.1 rfl
          · exact next.2 rfl
      cases first with
      | word | punctuation | literal => cases code
      | lineComment =>
        obtain ⟨hc, rest⟩ := eq_cons_of_bytes_append (c := '/') (by decide) spelled.symm
        exact (noMark (d := '/') (by decide) (.inl rfl) rest hc).elim
      | blockComment =>
        obtain ⟨hc, rest⟩ := eq_cons_of_bytes_append (c := '/') (by decide) spelled.symm
        exact (noMark (d := '*') (by decide) (.inr rfl) rest hc).elim
      | @space b z space =>
        obtain ⟨d, ascii, rfl, blank⟩ := exists_blank space
        obtain ⟨rfl, rest⟩ := eq_cons_of_bytes_append ascii spelled.symm
        have none : NoComment s := List.IsChain.tail none
        exact List.forall_mem_cons.mpr ⟨blank, ih gapRest others rest.symm none⟩

end EntityForge.Registry

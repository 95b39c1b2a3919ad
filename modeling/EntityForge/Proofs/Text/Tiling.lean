import EntityForge.Proofs.Text.Place
import Mathlib

/-!
# Texts as tokens and gaps

Some of the pieces that a scanner finds count as tokens, the others are gaps. `Tiled` is the relation
between a text and tokens that fill it together with gaps. It is stated without the scanner, by what a
whole piece is before the rest of a text, and the tokens that the scanner reads are the only ones that
fill the text.
-/

namespace EntityForge.Text

variable {κ : Type}

/-- A scanner for which `Whole` says whether bytes are a whole lexeme of a kind before the rest of a
text. -/
structure Divides (next : UInt8 → List UInt8 → κ × Nat)
    (Whole : κ → List UInt8 → List UInt8 → Prop) : Prop where
  bounded : ∀ b rest, (next b rest).2 ≤ rest.length
  whole : ∀ k b part rest, next b (part ++ rest) = (k, part.length) ↔ Whole k (b :: part) rest
  ne_nil : ∀ k rest, ¬ Whole k [] rest

/-- A text from a place on as tokens and what lies between them. -/
inductive Tiled (Whole : κ → List UInt8 → List UInt8 → Prop) (counts : κ → Bool) :
    Nat → List (Lexeme κ) → List UInt8 → Prop where
  | nil {start} :
    Tiled Whole counts start [] []
  | gap {start k bs rest ts} :
    Whole k bs rest →
    counts k = false →
    Tiled Whole counts (start + bs.length) ts rest →
    Tiled Whole counts start ts (bs ++ rest)
  | token {start k bs rest ts} :
    Whole k bs rest →
    counts k →
    Tiled Whole counts (start + bs.length) ts rest →
    Tiled Whole counts start (⟨k, start, bs⟩ :: ts) (bs ++ rest)

variable {next : UInt8 → List UInt8 → κ × Nat} {Whole : κ → List UInt8 → List UInt8 → Prop}
  {Complete : κ → List UInt8 → UInt8 → Prop} {counts : κ → Bool}

namespace Divides

/-- A scanner that divides texts looks one byte ahead if whole pieces before a byte are settled by
it. -/
lemma scans (divides : Divides next Whole)
    (ahead : ∀ {k bs z rest}, Whole k bs (z :: rest) ↔ Complete k bs z) : Scans next Complete where
  bounded := divides.bounded
  complete := fun k b part z rest => (divides.whole k b part (z :: rest)).trans ahead
  ne_nil := fun k z complete => divides.ne_nil k [z] (ahead.mpr complete)

variable (divides : Divides next Whole)

include divides

/-- What the scanner finds first is whole before the rest of the text. -/
lemma whole_next (b : UInt8) (rest : List UInt8) :
    Whole (next b rest).1 (b :: rest.take (next b rest).2) (rest.drop (next b rest).2) := by
  rw [← divides.whole, List.take_append_drop, List.length_take,
    Nat.min_eq_left (divides.bounded b rest)]

/-- A whole piece is read before the rest of the text. -/
lemma lexemes_append {start : Nat} {k : κ} {bs rest : List UInt8} (whole : Whole k bs rest) :
    lexemes next start (bs ++ rest) =
      ⟨k, start, bs⟩ :: lexemes next (start + bs.length) rest := by
  cases bs with
  | nil => exact absurd whole (divides.ne_nil k rest)
  | cons b part =>
    rw [List.cons_append, lexemes_cons, (divides.whole k b part rest).mpr whole, List.take_left,
      List.drop_left]

/-- The tokens that are read tile a text together with the gaps. -/
lemma tiled_lexemes (counts : κ → Bool) (start : Nat) (s : List UInt8) :
    Tiled Whole counts start ((lexemes next start s).filter fun l => counts l.kind) s := by
  fun_induction lexemes next start s with
  | case1 => exact .nil
  | case2 start b rest kind count eq lexeme ih =>
    have whole := divides.whole_next b rest
    rw [eq] at whole
    have text : b :: rest = (b :: rest.take count) ++ rest.drop count := by
      rw [List.cons_append, List.take_append_drop]
    rw [text]
    cases here : counts kind with
    | false => rw [List.filter_cons_of_neg (by simpa [lexeme] using here)]; exact .gap whole here ih
    | true => rw [List.filter_cons_of_pos (by simpa [lexeme] using here)]; exact .token whole here ih

/-- Tokens that tile a text together with gaps are the ones that are read. -/
lemma filter_lexemes {start : Nat} {ts : List (Lexeme κ)} {s : List UInt8}
    (h : Tiled Whole counts start ts s) :
    (lexemes next start s).filter (fun l => counts l.kind) = ts := by
  induction h with
  | nil => rw [lexemes, List.filter_nil]
  | gap whole here _ ih =>
    rw [divides.lexemes_append whole, List.filter_cons_of_neg (by simpa using here), ih]
  | token whole here _ ih =>
    rw [divides.lexemes_append whole, List.filter_cons_of_pos (by simpa using here), ih]

/-- A piece that has been read is whole before the rest of the text. -/
lemma whole_of_pieces {s : List UInt8} {before after : List (κ × List UInt8)}
    {p : κ × List UInt8} (h : pieces next s = before ++ p :: after) :
    Whole p.1 p.2 (spell after) := by
  have here := pieces_spell_of_append h
  cases text : spell (p :: after) with
  | nil =>
    rw [text, pieces_nil] at here
    cases here
  | cons b rest =>
    rw [text, pieces_cons] at here
    obtain ⟨rfl, others⟩ := List.cons.inj here
    have whole := divides.whole_next b rest
    rwa [← @spell_pieces _ next (rest.drop _), others] at whole

/-- A text is its tokens with gaps between them, and in one way only. The tokens follow one another,
and each of them holds something, lies between two boundaries and is whole where it stands; a token
whose bytes are a run of a class of bytes is a longest run of them. -/
lemma tiles {p : UInt8 → Bool} {word : κ} (scans : Scans next Complete)
    (parts : ∀ {k bs z}, Complete k bs z → p z → ∃ init b, bs = init ++ [b] ∧ p b = false)
    (high : ∀ b : UInt8, 0x80 ≤ b → p b)
    (runs : ∀ {bs rest}, Whole word bs rest →
      (∀ b ∈ bs, p b) ∧ ∀ z, rest.head? = some z → p z = false) (s : List Char) :
    (∀ ts, (lexemes next 0 (bytes s)).filter (fun l => counts l.kind) = ts ↔
      Tiled Whole counts 0 ts (bytes s)) ∧
    ((lexemes next 0 (bytes s)).filter fun l => counts l.kind).Pairwise
      (fun t u => t.stop ≤ u.start) ∧
    ∀ t ∈ (lexemes next 0 (bytes s)).filter fun l => counts l.kind,
      t.start < t.stop ∧ IsBoundary s t.start ∧ IsBoundary s t.stop ∧
      ∃ before after, bytes s = before ++ (t.bytes ++ after) ∧ t.start = before.length ∧
        Whole t.kind t.bytes after ∧ (t.kind = word → IsRun p before t.bytes after) := by
  refine ⟨fun ts => ⟨?_, divides.filter_lexemes⟩, (pairwise_lexemes 0 _).filter _, fun t mem => ?_⟩
  · rintro rfl
    exact divides.tiled_lexemes counts 0 (bytes s)
  · have mem := List.mem_of_mem_filter mem
    obtain ⟨before, after, read, text, start⟩ := exists_pieces mem
    have whole : Whole t.kind t.bytes (spell after) := divides.whole_of_pieces read
    obtain ⟨starts, stops⟩ := scans.isBoundary_lexeme parts high mem
    have ne : t.bytes ≠ [] := fun none_ => divides.ne_nil t.kind (spell after) (none_ ▸ whole)
    refine ⟨Nat.lt_add_of_pos_right (List.length_pos_iff.mpr ne), starts, stops, _, _, text, start,
      whole, ?_⟩
    rintro rfl
    obtain ⟨inside, ends⟩ := runs whole
    refine ⟨ne, inside, fun c last => ?_, ends⟩
    -- The byte before a run is the last one of a piece, which the next byte of the run has ended.
    obtain ⟨b, part, first⟩ := List.exists_cons_of_ne_nil ne
    have rest : spell (t.piece :: after) = b :: (part ++ spell after) := by
      rw [spell_cons, Lexeme.piece, first, List.cons_append]
    exact scans.begins parts read rest (inside b (first ▸ List.mem_cons_self)) last

end Divides

end EntityForge.Text

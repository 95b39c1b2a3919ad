import EntityForge.Text.Lexeme
import Mathlib

/-!
# Lexemes of a composed text

A scanner that looks at most one byte beyond a lexeme reads the parts of a text as it reads the
whole: where a lexeme ends is settled by its own bytes and the byte after it. Pieces are lexemes
without their places, so that the same part can be recognised in two texts.
-/

namespace EntityForge.Text

variable {κ : Type} {next : UInt8 → List UInt8 → κ × Nat}

/-- A lexeme without its place. -/
def Lexeme.piece (l : Lexeme κ) : κ × List UInt8 :=
  (l.kind, l.bytes)

/-- The bytes of pieces, one after the other. -/
def spell (ps : List (κ × List UInt8)) : List UInt8 :=
  ps.flatMap (·.2)

/-- The pieces that a scanner cuts bytes into. -/
def pieces (next : UInt8 → List UInt8 → κ × Nat) (s : List UInt8) : List (κ × List UInt8) :=
  (lexemes next 0 s).map Lexeme.piece

/-- No pieces spell nothing. -/
@[simp]
lemma spell_nil : spell ([] : List (κ × List UInt8)) = [] := rfl

/-- Pieces spell what the first one is, then what the others spell. -/
@[simp]
lemma spell_cons (p : κ × List UInt8) (ps : List (κ × List UInt8)) :
    spell (p :: ps) = p.2 ++ spell ps := rfl

/-- Pieces and others spell one text after the other. -/
@[simp]
lemma spell_append (ps qs : List (κ × List UInt8)) : spell (ps ++ qs) = spell ps ++ spell qs :=
  List.flatMap_append

/-! ### Places -/

/-- The first lexeme and the others. -/
lemma lexemes_cons (start : Nat) (b : UInt8) (rest : List UInt8) :
    lexemes next start (b :: rest) =
      ⟨(next b rest).1, start, b :: rest.take (next b rest).2⟩ ::
        lexemes next (start + (b :: rest.take (next b rest).2).length)
          (rest.drop (next b rest).2) := by
  rw [lexemes]
  rfl

/-- Lexemes from two places differ in nothing but their places. -/
private lemma map_piece_lexemes_eq (start other : Nat) (s : List UInt8) :
    (lexemes next start s).map Lexeme.piece = (lexemes next other s).map Lexeme.piece := by
  fun_induction lexemes next start s generalizing other with
  | case1 => rw [lexemes]
  | case2 start b rest kind count eq lexeme ih =>
    rw [lexemes_cons other, List.map_cons, List.map_cons, eq]
    exact congrArg _ (ih _)

/-- Where a text begins has no influence on its pieces. -/
@[simp]
lemma map_piece_lexemes (start : Nat) (s : List UInt8) :
    (lexemes next start s).map Lexeme.piece = pieces next s :=
  map_piece_lexemes_eq start 0 s

/-- The empty text has no pieces. -/
@[simp]
lemma pieces_nil : pieces next [] = [] := by
  rw [pieces, lexemes, List.map_nil]

/-- The first piece and the others. -/
lemma pieces_cons (b : UInt8) (rest : List UInt8) :
    pieces next (b :: rest) =
      ((next b rest).1, b :: rest.take (next b rest).2) ::
        pieces next (rest.drop (next b rest).2) := by
  rw [pieces, lexemes_cons, List.map_cons, map_piece_lexemes]
  rfl

/-- A piece is what the scanner reads at some place. -/
lemma exists_next_of_mem_pieces {s : List UInt8} {p : κ × List UInt8} (mem : p ∈ pieces next s) :
    ∃ b rest, p = ((next b rest).1, b :: rest.take (next b rest).2) := by
  rw [← map_piece_lexemes 0] at mem
  generalize 0 = start at mem
  fun_induction lexemes next start s with
  | case1 => cases mem
  | case2 start b rest kind count eq lexeme ih =>
    rw [List.map_cons, List.mem_cons] at mem
    obtain rfl | mem := mem
    · exact ⟨b, rest, by rw [eq]; rfl⟩
    · exact ih mem

/-- The pieces of a text make up the text. -/
lemma spell_pieces (s : List UInt8) : spell (pieces next s) = s := by
  rw [← map_piece_lexemes 0]
  fun_induction lexemes next 0 s with
  | case1 => rfl
  | case2 start b rest kind count eq lexeme ih =>
    rw [List.map_cons, spell_cons, ih]
    simp only [Lexeme.piece, lexeme, List.cons_append, List.take_append_drop]

/-- A lexeme stands after what the lexemes before it spell. -/
lemma start_eq {start : Nat} {s : List UInt8} {before after : List (Lexeme κ)} {l : Lexeme κ}
    (h : lexemes next start s = before ++ l :: after) :
    l.start = start + (spell (before.map Lexeme.piece)).length := by
  induction before generalizing start s with
  | nil =>
    cases s with
    | nil => rw [lexemes] at h; cases h
    | cons b s => rw [lexemes_cons] at h; cases h; rfl
  | cons first before ih =>
    cases s with
    | nil => rw [lexemes] at h; cases h
    | cons b s =>
      rw [lexemes_cons] at h
      obtain ⟨rfl, others⟩ := List.cons.inj h
      rw [ih others, List.map_cons, spell_cons, List.length_append, Nat.add_assoc]
      rfl

/-- Lexemes begin where the text does or behind it. -/
lemma le_start {start : Nat} {s : List UInt8} {l : Lexeme κ} (mem : l ∈ lexemes next start s) :
    start ≤ l.start := by
  obtain ⟨before, after, split⟩ := List.append_of_mem mem
  rw [start_eq split]
  exact Nat.le_add_right _ _

/-- Every lexeme is over before the next one begins. -/
lemma pairwise_lexemes (start : Nat) (s : List UInt8) :
    (lexemes next start s).Pairwise fun l l' => l.stop ≤ l'.start := by
  fun_induction lexemes next start s with
  | case1 => exact .nil
  | case2 start b rest kind count eq lexeme ih => exact .cons (fun l' mem => le_start mem) ih

/-! ### Scanners that look one byte ahead -/

/-- A scanner for which `Complete` says whether bytes are a whole lexeme of a kind when a certain
byte follows them. -/
structure Scans (next : UInt8 → List UInt8 → κ × Nat)
    (Complete : κ → List UInt8 → UInt8 → Prop) : Prop where
  bounded : ∀ b rest, (next b rest).2 ≤ rest.length
  complete : ∀ k b part z rest,
    next b (part ++ z :: rest) = (k, part.length) ↔ Complete k (b :: part) z
  ne_nil : ∀ k z, ¬ Complete k [] z

variable {Complete : κ → List UInt8 → UInt8 → Prop}

/-- The byte that follows nothing, or some pieces' first byte, before `z`. -/
def lead (ps : List (κ × List UInt8)) (z : UInt8) : UInt8 :=
  (spell ps).headD z

/-- Nothing stands before the byte that follows. -/
@[simp]
lemma lead_nil (z : UInt8) : lead ([] : List (κ × List UInt8)) z = z := rfl

/-- A piece begins with its first byte. -/
@[simp]
lemma lead_cons (k : κ) (b : UInt8) (part : List UInt8) (ps : List (κ × List UInt8)) (z : UInt8) :
    lead ((k, b :: part) :: ps) z = b := rfl

/-- What pieces spell before a byte starts with the byte that leads them. -/
lemma exists_spell_eq (ps : List (κ × List UInt8)) (z : UInt8) (rest : List UInt8) :
    ∃ more, spell ps ++ z :: rest = lead ps z :: more := by
  rw [lead]
  cases spell ps with
  | nil => exact ⟨rest, rfl⟩
  | cons b part => exact ⟨part ++ z :: rest, rfl⟩

/-- Where pieces come before others, the lead of these follows. -/
lemma lead_append (ps qs : List (κ × List UInt8)) (z : UInt8) :
    lead (ps ++ qs) z = lead ps (lead qs z) := by
  rw [lead, lead, lead, spell_append]
  cases spell ps <;> rfl

/-- Pieces of which each is complete before the next one, and the last before `z`. -/
def Chained (Complete : κ → List UInt8 → UInt8 → Prop) : List (κ × List UInt8) → UInt8 → Prop
  | [], _ => True
  | p :: ps, z => Complete p.1 p.2 (lead ps z) ∧ Chained Complete ps z

/-- No pieces are chained. -/
@[simp]
lemma chained_nil (z : UInt8) : Chained Complete [] z := trivial

/-- A chain is its first piece before the others, and the chain of these. -/
@[simp]
lemma chained_cons {p : κ × List UInt8} {ps : List (κ × List UInt8)} {z : UInt8} :
    Chained Complete (p :: ps) z ↔ Complete p.1 p.2 (lead ps z) ∧ Chained Complete ps z :=
  Iff.rfl

/-- A chain is a chain before another one. -/
lemma chained_append {ps qs : List (κ × List UInt8)} {z : UInt8} :
    Chained Complete (ps ++ qs) z ↔
      Chained Complete ps (lead qs z) ∧ Chained Complete qs z := by
  induction ps with
  | nil => simp
  | cons p ps ih => rw [List.cons_append, chained_cons, chained_cons, ih, lead_append, and_assoc]

/-- Pieces that are complete where they stand are read as such. -/
lemma Scans.pieces_append (scans : Scans next Complete) {ps : List (κ × List UInt8)} {z : UInt8}
    {rest : List UInt8} (h : Chained Complete ps z) :
    pieces next (spell ps ++ z :: rest) = ps ++ pieces next (z :: rest) := by
  induction ps with
  | nil => rfl
  | cons p ps ih =>
    obtain ⟨k, bs⟩ := p
    obtain ⟨first, others⟩ := h
    cases bs with
    | nil => exact absurd first (scans.ne_nil k _)
    | cons b part =>
      obtain ⟨more, e⟩ := exists_spell_eq ps z rest
      have read : next b (part ++ (spell ps ++ z :: rest)) = (k, part.length) := by
        rw [e]
        exact (scans.complete k b part _ more).mpr first
      rw [spell_cons, List.append_assoc, List.cons_append, pieces_cons, read, List.take_left,
        List.drop_left, ih others]
      rfl

/-- Pieces as lexemes of which the first stands at a place. -/
def placed (start : Nat) : List (κ × List UInt8) → List (Lexeme κ)
  | [] => []
  | (k, bs) :: ps => ⟨k, start, bs⟩ :: placed (start + bs.length) ps

/-- Pieces stand behind those that come before them. -/
lemma placed_append (start : Nat) (ps qs : List (κ × List UInt8)) :
    placed start (ps ++ qs) = placed start ps ++ placed (start + (spell ps).length) qs := by
  induction ps generalizing start with
  | nil => rfl
  | cons p ps ih =>
    rw [List.cons_append, placed, ih, spell_cons, List.length_append, Nat.add_assoc]
    rfl

/-- Pieces that are complete where they stand are read there. -/
lemma Scans.lexemes_append (scans : Scans next Complete) {ps : List (κ × List UInt8)} {z : UInt8}
    {start : Nat} {rest : List UInt8} (h : Chained Complete ps z) :
    lexemes next start (spell ps ++ z :: rest) =
      placed start ps ++ lexemes next (start + (spell ps).length) (z :: rest) := by
  induction ps generalizing start with
  | nil => rfl
  | cons p ps ih =>
    obtain ⟨k, bs⟩ := p
    obtain ⟨first, others⟩ := h
    cases bs with
    | nil => exact absurd first (scans.ne_nil k _)
    | cons b part =>
      obtain ⟨more, e⟩ := exists_spell_eq ps z rest
      have read : next b (part ++ (spell ps ++ z :: rest)) = (k, part.length) := by
        rw [e]
        exact (scans.complete k b part _ more).mpr first
      rw [spell_cons, List.append_assoc, List.cons_append, lexemes_cons, read, List.take_left,
        List.drop_left, ih others, List.length_append, Nat.add_assoc]
      rfl

/-- Bytes before a certain byte are complete pieces in one way at most. -/
lemma Scans.eq_of_spell_eq (scans : Scans next Complete) {ps qs : List (κ × List UInt8)}
    {z : UInt8} (hp : Chained Complete ps z) (hq : Chained Complete qs z)
    (h : spell ps = spell qs) : ps = qs := by
  have left := @Scans.pieces_append _ _ _ scans _ _ [] hp
  rw [h, scans.pieces_append hq] at left
  exact (List.append_cancel_right left).symm

/-- Pieces that have been read are complete where they stand. -/
lemma Scans.chained_of_pieces (scans : Scans next Complete) {s : List UInt8}
    {ps qs : List (κ × List UInt8)} {z : UInt8} {rest : List UInt8}
    (h : pieces next s = ps ++ qs) (hqs : spell qs = z :: rest) : Chained Complete ps z := by
  induction ps generalizing s with
  | nil => trivial
  | cons p ps ih =>
    cases s with
    | nil => rw [pieces_nil] at h; cases h
    | cons b s =>
      rw [pieces_cons, List.cons_append] at h
      obtain ⟨first, others⟩ := List.cons.inj h
      refine ⟨?_, ih others⟩
      obtain ⟨more, e⟩ := exists_spell_eq ps z rest
      have drop : s.drop (next b s).2 = lead ps z :: more := by
        rw [← e, ← hqs, ← spell_append, ← others, spell_pieces]
      have split : s = s.take (next b s).2 ++ lead ps z :: more := by
        rw [← drop, List.take_append_drop]
      rw [← first]
      refine (scans.complete _ b _ _ more).mp ?_
      rw [← split, List.length_take, Nat.min_eq_left (scans.bounded b s)]

/-- The rest of the pieces are the pieces of the rest. -/
lemma pieces_spell_of_append {s : List UInt8} {ps qs : List (κ × List UInt8)}
    (h : pieces next s = ps ++ qs) : pieces next (spell qs) = qs := by
  induction ps generalizing s with
  | nil => rw [← List.nil_append qs, ← h, spell_pieces]
  | cons p ps ih =>
    cases s with
    | nil => rw [pieces_nil] at h; cases h
    | cons b s =>
      rw [pieces_cons, List.cons_append] at h
      exact ih (List.cons.inj h).2

/-- Whatever follows a text, only its last piece can be read in another way. -/
lemma Scans.lexemes_append_of_pieces (scans : Scans next Complete) {s : List UInt8}
    {ps : List (κ × List UInt8)} {p : κ × List UInt8} (h : pieces next s = ps ++ [p])
    (t : List UInt8) :
    lexemes next 0 (s ++ t) = placed 0 ps ++ lexemes next (spell ps).length (p.2 ++ t) := by
  have mem : p ∈ pieces next s := h ▸ List.mem_append_right ps (List.mem_singleton_self p)
  obtain ⟨b, rest, rfl⟩ := exists_next_of_mem_pieces mem
  have text : s ++ t = spell ps ++ b :: (rest.take (next b rest).2 ++ t) := by
    rw [← @spell_pieces _ next s, h, spell_append, spell_cons, spell_nil, List.append_nil,
      List.append_assoc]
    rfl
  rw [text, scans.lexemes_append (scans.chained_of_pieces h (List.append_nil _)), Nat.zero_add]
  rfl

end EntityForge.Text

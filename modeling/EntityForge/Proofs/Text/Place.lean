import EntityForge.Proofs.Text.Bytes
import EntityForge.Proofs.Text.Lexeme
import Mathlib

/-!
# Where lexemes stand

A class of bytes is parted from the others if a piece before a byte of the class ends with a byte that
is none. If the class has all bytes beyond ASCII, a scanner never divides a character, wherever its
pieces end, and the runs that it reads are longest ones.
-/

namespace EntityForge.Text

variable {κ : Type} {next : UInt8 → List UInt8 → κ × Nat}

/-- A longest run of bytes that pass a test, between the bytes before and behind it. -/
structure IsRun (p : UInt8 → Bool) (before part after : List UInt8) : Prop where
  ne_nil : part ≠ []
  inside : ∀ b ∈ part, p b
  begins : ∀ b, before.getLast? = some b → p b = false
  ends : ∀ b, after.head? = some b → p b = false

/-- A lexeme is one of the pieces of a text and stands behind those before it. -/
lemma exists_pieces {s : List UInt8} {l : Lexeme κ} (mem : l ∈ lexemes next 0 s) :
    ∃ before after : List (κ × List UInt8), pieces next s = before ++ l.piece :: after ∧
      s = spell before ++ (l.bytes ++ spell after) ∧ l.start = (spell before).length := by
  obtain ⟨before, after, split⟩ := List.append_of_mem mem
  have read : pieces next s = before.map Lexeme.piece ++ l.piece :: after.map Lexeme.piece := by
    rw [pieces, split, List.map_append, List.map_cons]
  refine ⟨_, _, read, ?_, ?_⟩
  · rw [← @spell_pieces _ next s, read, spell_append, spell_cons]
    rfl
  · rw [start_eq split, Nat.zero_add]

section

variable {Complete : κ → List UInt8 → UInt8 → Prop} (scans : Scans next Complete)
  {p : UInt8 → Bool}
  (parts : ∀ {k bs z}, Complete k bs z → p z → ∃ init b, bs = init ++ [b] ∧ p b = false)

include scans parts

/-- Before a byte of the class the pieces end with a byte that is none. -/
lemma Scans.begins {s : List UInt8} {ps qs : List (κ × List UInt8)} {z : UInt8}
    {more : List UInt8} (h : pieces next s = ps ++ qs) (rest : spell qs = z :: more) (hz : p z)
    {b : UInt8} (last : (spell ps).getLast? = some b) : p b = false := by
  have chained := scans.chained_of_pieces h rest
  cases ps using List.reverseRecOn with
  | nil => cases last
  | append_singleton ps q =>
    obtain ⟨init, c, ends, other⟩ := parts (chained_append.mp chained).2.1 hz
    rw [spell_append, spell_cons, spell_nil, List.append_nil, ends, ← List.append_assoc,
      List.getLast?_concat] at last
    exact Option.some.inj last ▸ other

/-- There is a boundary between the pieces of a text. -/
lemma Scans.isBoundary (high : ∀ b : UInt8, 0x80 ≤ b → p b) {s : List Char}
    {ps qs : List (κ × List UInt8)} (h : pieces next (bytes s) = ps ++ qs) :
    IsBoundary s (spell ps).length := by
  have whole : bytes s = spell ps ++ spell qs := by
    rw [← spell_append, ← h, spell_pieces]
  cases rest : spell qs with
  | nil =>
    rw [rest, List.append_nil] at whole
    exact ⟨s, [], (List.append_nil _).symm, by rw [whole]⟩
  | cons z more =>
    rw [rest] at whole
    by_cases low : z < 0x80
    · exact isBoundary_before whole low
    · have large := UInt8.not_lt.mp low
      cases front : spell ps using List.reverseRecOn with
      | nil => exact ⟨[], s, rfl, rfl⟩
      | append_singleton init b =>
        -- The byte below `0x80` is a character of its own, on one side of the edge or the other.
        have other := scans.begins parts h rest (high z large) (b := b) (by simp [front])
        have low : b < 0x80 := by
          by_contra large
          rw [high b (UInt8.not_lt.mp large)] at other
          cases other
        rw [front] at whole
        exact isBoundary_behind (b := z :: more) (by simpa using whole) low

/-- Lexemes begin and end at boundaries. -/
lemma Scans.isBoundary_lexeme (high : ∀ b : UInt8, 0x80 ≤ b → p b) {s : List Char}
    {l : Lexeme κ} (mem : l ∈ lexemes next 0 (bytes s)) :
    IsBoundary s l.start ∧ IsBoundary s l.stop := by
  obtain ⟨before, after, read, -, start⟩ := exists_pieces mem
  constructor
  · rw [start]
    exact scans.isBoundary parts high read
  · have stop : l.stop = (spell (before ++ [l.piece])).length := by
      rw [Lexeme.stop, start, spell_append, List.length_append]
      simp [Lexeme.piece]
    rw [stop]
    exact scans.isBoundary parts high (read.trans (List.append_cons _ _ _))

end

end EntityForge.Text

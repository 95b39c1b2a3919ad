import EntityForge.Proofs.Schema.Token
import EntityForge.Proofs.Text.Bytes
import EntityForge.Proofs.Text.Word
import Mathlib

/-!
# Balanced texts of a schema

Somebody who reads a schema character by character is in code, in a comment or in a string. A text
is balanced if such a reader is in code at its end and has seen every block closed that was opened,
and no other. What the reader sees is what the scanner cuts out: `exists_cut` follows both through a
text, whatever piece was begun before it.
-/

namespace EntityForge.Schema

open Text

/-! ### Reading character by character -/

/-- Where a reader of a schema is. -/
inductive Mode where
  | code
  /-- Behind a slash of code, which may begin a comment. -/
  | slash
  | comment
  | quoted
  /-- Behind a backslash in a string. -/
  | escaped
  deriving DecidableEq, Repr

namespace Mode

/-- Whether the reader is outside comments and strings. -/
def isCode : Mode → Bool
  | .code | .slash => true
  | .comment | .quoted | .escaped => false

/-- Where the reader is behind a character. -/
def after (mode : Mode) (c : Char) : Mode :=
  match mode with
  | .code => if c = '/' then .slash else if c = '"' then .quoted else .code
  | .slash => if c = '/' then .comment else if c = '"' then .quoted else .code
  | .comment => if c = '\n' then .code else .comment
  | .quoted => if c = '\\' then .escaped else if c = '"' then .code else .quoted
  | .escaped => .quoted

/-- Where the reader is behind a text. -/
def run (mode : Mode) (s : List Char) : Mode :=
  s.foldl after mode

/-- The characters of a text that the reader meets outside comments and strings. -/
def visible (mode : Mode) : List Char → List Char
  | [] => []
  | c :: s => if mode.isCode then c :: (mode.after c).visible s else (mode.after c).visible s

/-- A text is read character by character. -/
@[simp]
lemma run_cons (mode : Mode) (c : Char) (s : List Char) :
    mode.run (c :: s) = (mode.after c).run s := rfl

/-- Behind a slash that begins no comment the reader goes on as in other code. -/
lemma after_slash {c : Char} (h : c ≠ '/') : slash.after c = code.after c := by
  rw [after, after, if_neg h, if_neg h]

end Mode

/-- The number of open blocks behind characters of code, if none is closed that was not opened. -/
def depth? (depth : Nat) : List Char → Option Nat
  | [] => some depth
  | c :: s =>
    if c = '\x7b' then depth? (depth + 1) s
    else if c = '\x7d' then if depth = 0 then none else depth? (depth - 1) s
    else depth? depth s

/-- Whether a text ends outside comments and strings and closes exactly the blocks that it opens. -/
def Balanced (s : List Char) : Prop :=
  (Mode.code.run s).isCode ∧ depth? 0 (Mode.code.visible s) = some 0

/-- Whether braces are balanced can be checked by counting them. -/
instance (s : List Char) : Decidable (Balanced s) :=
  inferInstanceAs (Decidable (_ ∧ _))

/-- Whether a character is neither part of a word nor a brace. -/
def IsFiller (c : Char) : Prop :=
  ¬ IsWordChar c ∧ c ≠ '\x7b' ∧ c ≠ '\x7d'

/-- Fillers can be looked up. -/
instance (c : Char) : Decidable (IsFiller c) :=
  inferInstanceAs (Decidable (_ ∧ _))

/-- Whether a text is balanced and has neither words nor braces outside comments and strings. -/
def IsGap (s : List Char) : Prop :=
  Balanced s ∧ ∀ c ∈ Mode.code.visible s, IsFiller c

/-- Whether a text is a gap can be checked by reading it. -/
instance (s : List Char) : Decidable (IsGap s) :=
  @instDecidableAnd _ _ inferInstance (List.decidableBAll IsFiller (Mode.code.visible s))

/-! ### Reading piece by piece -/

/-- The number of open blocks behind pieces of certain kinds. -/
def nesting? (depth : Nat) : List Kind → Option Nat
  | [] => some depth
  | .opening :: kinds => nesting? (depth + 1) kinds
  | .closing :: kinds =>
    match depth with
    | 0 => none
    | depth + 1 => nesting? depth kinds
  | _ :: kinds => nesting? depth kinds

/-- Whether bytes are what has been read of a piece by a reader who is not yet through with it. -/
def Begun : Mode → List UInt8 → Prop
  | .code, bs => bs = []
  | .slash, bs => bs = [0x2F]
  | .comment, bs => ∃ body, bs = 0x2F :: 0x2F :: body ∧ 0x0A ∉ body
  | .quoted, bs =>
    ∃ body, bs = 0x22 :: body ∧ ∀ more, LiteralBody 0x22 more → LiteralBody 0x22 (body ++ more)
  | .escaped, bs =>
    ∃ body, bs = 0x22 :: (body ++ [0x5C]) ∧
      ∀ more, LiteralBody 0x22 more → LiteralBody 0x22 (body ++ more)

/-- Pieces before a byte that what was begun and a text are cut into. -/
structure Cut (mode : Mode) (begun : List UInt8) (s : List Char) (z : UInt8) (ps : List Piece) :
    Prop where
  spell_eq : spell ps = begun ++ bytes s
  chained : Chained Complete ps z
  nesting : ∀ depth, nesting? depth (ps.map (·.1)) = depth? depth (mode.visible s)
  filler : (∀ c ∈ mode.visible s, IsFiller c) → ∀ p ∈ ps, p.1.isToken = false

/-- Whether the last piece of a text is over before a byte. -/
def Fits (mode : Mode) (s : List Char) (z : UInt8) : Prop :=
  (mode.run s = .slash → z ≠ 0x2F) ∧ (isWordByte z → ∀ c ∈ mode.visible s, ¬ IsWordChar c)

/-- The rest of a text is over before a byte if the text is. -/
lemma Fits.tail {mode : Mode} {c : Char} {s : List Char} {z : UInt8} (h : Fits mode (c :: s) z) :
    Fits (mode.after c) s z := by
  refine ⟨h.1, fun word d mem => h.2 word d ?_⟩
  rw [Mode.visible]
  split_ifs
  · exact .tail c mem
  · exact mem

/-! ### Words and other characters -/

/-- Only a word begins with a byte of a word. -/
lemma Complete.isWordByte_head {k : Kind} {b : UInt8} {bs : List UInt8} {z : UInt8}
    (h : Complete k (b :: bs) z) : isWordByte b ↔ k = .word := by
  cases h with
  | word _ inside => exact iff_of_true (inside b List.mem_cons_self) rfl
  | opening => decide
  | closing => decide
  | comment => exact iff_of_false (by decide) nofun
  | quoted => exact iff_of_false (by decide) nofun
  | other other =>
    rw [(isOtherByte_iff.mp other).2.2.2]
    exact iff_of_false Bool.false_ne_true nofun

/-- What leads pieces is a byte of a word only if the first of them is a word. -/
lemma isWordByte_lead {k : Kind} {bs : List UInt8} {ps : List Piece} {z : UInt8}
    (h : Chained Complete ((k, bs) :: ps) z) : isWordByte (lead ((k, bs) :: ps) z) ↔ k = .word := by
  cases bs with
  | nil => exact absurd h.1 (scans.ne_nil k _)
  | cons b bs => exact h.1.isWordByte_head

/-- An ASCII character that is no filler, no quotation mark and no slash, is a piece of its own. -/
lemma isOtherByte_toUInt8 {c : Char} (word : ¬ IsWordChar c) (quote : c ≠ '"') (opens : c ≠ '\x7b')
    (closes : c ≠ '\x7d') : ∃ b, String.utf8EncodeChar c = [b] ∧ isOtherByte b ∧
      (c ≠ '/' → b ≠ 0x2F) := by
  have ascii : c.toNat < 0x80 := Nat.not_le.mp fun high => word (.inr (.inr high))
  have other {d : Char} (low : d.toNat < 0x80) (ne : c ≠ d) : c.toUInt8 ≠ d.toUInt8 :=
    fun e => ne (eq_of_toUInt8 ascii low e)
  refine ⟨c.toUInt8, utf8EncodeChar_of_ascii ascii, isOtherByte_iff.mpr ⟨?_, ?_, ?_, ?_⟩, ?_⟩
  · exact other (d := '"') (by decide) quote
  · exact other (d := '\x7b') (by decide) opens
  · exact other (d := '\x7d') (by decide) closes
  · exact Bool.eq_false_iff.mpr fun h => word ((isWordByte_toUInt8 ascii).mp h)
  · exact other (d := '/') (by decide)

/-- A character of a word goes on with the word behind it, or is one of its own. -/
lemma Cut.word {c : Char} {s : List Char} {z : UInt8} {ps : List Piece} (word : IsWordChar c)
    (cut : Cut .code [] s z ps) (fits : Fits .code (c :: s) z) (after : Mode.code.after c = .code) :
    ∃ qs, Cut .code [] (c :: s) z qs := by
  have visible : Mode.code.visible (c :: s) = c :: Mode.code.visible s := by
    rw [Mode.visible, after]
    rfl
  have braces (depth : Nat) : depth? depth (Mode.code.visible (c :: s)) =
      depth? depth (Mode.code.visible s) := by
    rw [visible, depth?, if_neg, if_neg]
    · rintro rfl
      exact absurd word (by decide)
    · rintro rfl
      exact absurd word (by decide)
  have unfilled (h : ∀ d ∈ Mode.code.visible (c :: s), IsFiller d) : False :=
    (h c (visible ▸ List.mem_cons_self)).1 word
  have inside : ∀ b ∈ String.utf8EncodeChar c, isWordByte b := by
    have := forall_isWordByte_iff.mpr (List.forall_mem_singleton.mpr word)
    rwa [bytes_cons, bytes_nil, List.append_nil] at this
  have ne : String.utf8EncodeChar c ≠ [] := by
    obtain ⟨b, bs, encoded⟩ := exists_utf8EncodeChar c
    rw [encoded]
    exact List.cons_ne_nil b bs
  have alone (stop : isWordByte (lead ps z) = false) : ∃ qs, Cut .code [] (c :: s) z qs :=
    ⟨(.word, String.utf8EncodeChar c) :: ps,
      by rw [spell_cons, cut.spell_eq, bytes_cons]; rfl,
      ⟨.word ne inside stop, cut.chained⟩,
      fun depth => (cut.nesting depth).trans (braces depth).symm,
      fun h => (unfilled h).elim⟩
  match ps, cut with
  | [], cut =>
    refine alone (Bool.eq_false_iff.mpr fun last => ?_)
    exact fits.2 last c (visible ▸ List.mem_cons_self) word
  | (k, bs) :: ps, cut =>
    by_cases first : k = .word
    · subst first
      cases cut.chained.1 with
      | word _ others stop =>
        refine ⟨(.word, String.utf8EncodeChar c ++ bs) :: ps, ?_, ⟨?_, cut.chained.2⟩, ?_, ?_⟩
        · rw [spell_cons, List.append_assoc, bytes_cons]
          exact congrArg _ cut.spell_eq
        · refine .word (List.append_ne_nil_of_left_ne_nil ne bs) ?_ stop
          exact List.forall_mem_append.mpr ⟨inside, others⟩
        · exact fun depth => (cut.nesting depth).trans (braces depth).symm
        · exact fun h => (unfilled h).elim
    · exact alone (Bool.eq_false_iff.mpr (mt (isWordByte_lead cut.chained).mp first))

/-- A character of code that does not begin a comment or a string. -/
lemma Cut.cons {c : Char} {s : List Char} {z : UInt8} {ps : List Piece} (slash : c ≠ '/')
    (quote : c ≠ '"') (cut : Cut .code [] s z ps) (fits : Fits .code (c :: s) z) :
    ∃ qs, Cut .code [] (c :: s) z qs := by
  have after : Mode.code.after c = .code := by rw [Mode.after, if_neg slash, if_neg quote]
  by_cases word : IsWordChar c
  · exact cut.word word fits after
  have visible : Mode.code.visible (c :: s) = c :: Mode.code.visible s := by
    rw [Mode.visible, after]
    rfl
  by_cases opens : c = '\x7b'
  · subst opens
    refine ⟨(.opening, [0x7B]) :: ps, by rw [spell_cons, cut.spell_eq]; rfl,
      ⟨.opening, cut.chained⟩, ?_, fun h => ?_⟩
    · intro depth
      rw [visible]
      exact cut.nesting (depth + 1)
    · exact absurd rfl (h _ (visible ▸ List.mem_cons_self)).2.1
  by_cases closes : c = '\x7d'
  · subst closes
    refine ⟨(.closing, [0x7D]) :: ps, by rw [spell_cons, cut.spell_eq]; rfl,
      ⟨.closing, cut.chained⟩, ?_, fun h => ?_⟩
    · intro depth
      rw [visible]
      cases depth with
      | zero => rfl
      | succ depth => exact cut.nesting depth
    · exact absurd rfl (h _ (visible ▸ List.mem_cons_self)).2.2
  obtain ⟨b, encoded, other, ne⟩ := isOtherByte_toUInt8 word quote opens closes
  refine ⟨(.other, [b]) :: ps, ?_, ⟨.other other fun e => absurd e (ne slash), cut.chained⟩, ?_, ?_⟩
  · rw [spell_cons, cut.spell_eq, bytes_cons, encoded]
    rfl
  · intro depth
    rw [visible, depth?, if_neg opens, if_neg closes]
    exact cut.nesting depth
  · rw [visible]
    exact fun h => List.forall_mem_cons.mpr
      ⟨rfl, cut.filler fun d mem => h d (.tail c mem)⟩

/-! ### Comments and strings -/

/-- A byte of a character is that of an ASCII character only if the characters are the same. -/
lemma not_mem_utf8EncodeChar {c d : Char} (ascii : d.toNat < 0x80) (ne : c ≠ d) :
    d.toUInt8 ∉ String.utf8EncodeChar c := by
  intro mem
  refine ne (List.mem_singleton.mp ((mem_bytes_iff (s := [c]) ascii).mp ?_)).symm
  rwa [bytes_cons, bytes_nil, List.append_nil]

/-- Bytes other than quotation marks and backslashes can stand anywhere in a string. -/
lemma literalBody_append {bs more : List UInt8} (quote : 0x22 ∉ bs) (escape : 0x5C ∉ bs)
    (h : LiteralBody 0x22 more) : LiteralBody 0x22 (bs ++ more) := by
  induction bs with
  | nil => exact h
  | cons b bs ih =>
    have others := ih (List.not_mem_of_not_mem_cons quote) (List.not_mem_of_not_mem_cons escape)
    have hq : b ≠ 0x22 := fun e => quote (e ▸ List.mem_cons_self)
    have he : b ≠ 0x5C := fun e => escape (e ▸ List.mem_cons_self)
    rw [List.cons_append]
    generalize bs ++ more = rest at others
    cases rest with
    | nil => exact ⟨he, hq⟩
    | cons c rest =>
      rw [LiteralBody, if_neg he]
      exact ⟨hq, others⟩

/-- Behind a backslash any character can stand in a string. -/
lemma literalBody_escape (c : Char) {more : List UInt8} (h : LiteralBody 0x22 more) :
    LiteralBody 0x22 (0x5C :: (String.utf8EncodeChar c ++ more)) := by
  by_cases ascii : c.toNat < 0x80
  · rw [utf8EncodeChar_of_ascii ascii, List.singleton_append, LiteralBody, if_pos rfl]
    exact h
  · -- Of a character beyond ASCII the backslash takes the first byte only.
    obtain ⟨b, bs, encoded⟩ := exists_utf8EncodeChar c
    have high (d : UInt8) (mem : d ∈ bs) : 0x80 ≤ d :=
      le_of_mem_utf8EncodeChar (Nat.not_lt.mp ascii) (encoded ▸ .tail b mem)
    rw [encoded, List.cons_append, LiteralBody, if_pos rfl]
    refine literalBody_append (fun mem => ?_) (fun mem => ?_) h
    · exact absurd (high _ mem) (by decide)
    · exact absurd (high _ mem) (by decide)

/-! ### Texts -/

/-- A character that goes on with what was begun. -/
lemma Cut.absorb {mode : Mode} {begun : List UInt8} {c : Char} {s : List Char} {z : UInt8}
    {ps : List Piece} (brace : mode.isCode → c ≠ '\x7b' ∧ c ≠ '\x7d')
    (cut : Cut (mode.after c) (begun ++ String.utf8EncodeChar c) s z ps) :
    Cut mode begun (c :: s) z ps where
  spell_eq := by rw [cut.spell_eq, List.append_assoc, bytes_cons]
  chained := cut.chained
  nesting depth := by
    rw [cut.nesting, Mode.visible]
    split_ifs with visible
    · rw [depth?, if_neg (brace visible).1, if_neg (brace visible).2]
    · rfl
  filler := by
    rw [Mode.visible]
    split_ifs
    · exact fun h => cut.filler fun d mem => h d (.tail c mem)
    · exact cut.filler

/-- A comment or a string that is over, before code. -/
lemma Cut.close {mode : Mode} {begun : List UInt8} {c : Char} {s : List Char} {z : UInt8}
    {p : Piece} {ps : List Piece} (hidden : mode.isCode = false) (code : mode.after c = .code)
    (spelled : spell (p :: ps) = begun ++ bytes (c :: s)) (chained : Chained Complete (p :: ps) z)
    (kind : p.1 = .comment ∨ p.1 = .quoted)
    (nesting : ∀ depth, nesting? depth (ps.map (·.1)) = depth? depth (Mode.code.visible s))
    (filler : (∀ c ∈ Mode.code.visible s, IsFiller c) → ∀ p ∈ ps, p.1.isToken = false) :
    Cut mode begun (c :: s) z (p :: ps) := by
  have visible : mode.visible (c :: s) = Mode.code.visible s := by
    rw [Mode.visible, hidden, code]
    rfl
  refine ⟨spelled, chained, fun depth => ?_, ?_⟩
  · rw [visible, ← nesting, List.map_cons]
    obtain kind | kind := kind <;> rw [kind] <;> rfl
  · rw [visible]
    refine fun h => List.forall_mem_cons.mpr ⟨?_, filler h⟩
    obtain kind | kind := kind <;> rw [kind] <;> rfl

/-- A slash behind which no comment begins is a piece of its own. -/
lemma Cut.slash {c : Char} {s : List Char} {z : UInt8} {ps : List Piece} (slash : c ≠ '/')
    (cut : Cut .code [] (c :: s) z ps) : Cut .slash [0x2F] (c :: s) z ((.other, [0x2F]) :: ps) := by
  have visible : Mode.slash.visible (c :: s) = Mode.code.visible (c :: s) := by
    rw [Mode.visible, Mode.visible, Mode.after_slash slash]
    rfl
  refine ⟨?_, ⟨.other (by decide) fun _ next => ?_, cut.chained⟩, ?_, ?_⟩
  · rw [spell_cons, cut.spell_eq]
    rfl
  · refine not_mem_utf8EncodeChar (d := '/') (by decide) slash ?_
    obtain ⟨b, bs, encoded⟩ := exists_utf8EncodeChar c
    rw [lead, cut.spell_eq, List.nil_append, bytes_cons, encoded] at next
    obtain rfl : b = 0x2F := next
    rw [encoded]
    exact List.mem_cons_self
  · exact fun depth => visible ▸ cut.nesting depth
  · rw [visible]
    exact fun h => List.forall_mem_cons.mpr ⟨rfl, cut.filler h⟩

/-- Whether a text is cut into pieces together with whatever was begun before it. -/
def Cuts (mode : Mode) (s : List Char) (z : UInt8) : Prop :=
  ∀ begun, Begun mode begun → ∃ ps, Cut mode begun s z ps

section

variable {c : Char} {s : List Char} {z : UInt8}

/-- A character of code begins a comment, a string or a word, or it is a piece. -/
lemma Cuts.code (later : Cuts (Mode.code.after c) s z) (fits : Fits .code (c :: s) z) :
    Cuts .code (c :: s) z := by
  rintro _ rfl
  by_cases slash : c = '/'
  · subst slash
    obtain ⟨ps, cut⟩ := later [0x2F] rfl
    exact ⟨ps, cut.absorb fun _ => by decide⟩
  by_cases quote : c = '"'
  · subst quote
    obtain ⟨ps, cut⟩ := later [0x22] ⟨[], rfl, fun _ more => more⟩
    exact ⟨ps, cut.absorb fun _ => by decide⟩
  have stays : Mode.code.after c = .code := by rw [Mode.after, if_neg slash, if_neg quote]
  rw [stays] at later
  obtain ⟨ps, cut⟩ := later [] rfl
  exact cut.cons slash quote fits

/-- A second slash begins a comment; what else follows a slash is code. -/
lemma Cuts.slash (later : Cuts (Mode.slash.after c) s z) (fits : Fits .slash (c :: s) z) :
    Cuts .slash (c :: s) z := by
  rintro _ rfl
  by_cases slash : c = '/'
  · subst slash
    obtain ⟨ps, cut⟩ := later [0x2F, 0x2F] ⟨[], rfl, List.not_mem_nil⟩
    exact ⟨ps, cut.absorb fun _ => by decide⟩
  have same := Mode.after_slash slash
  have fits : Fits .code (c :: s) z := by
    rw [Fits, Mode.run_cons, Mode.visible, same] at fits
    rwa [Fits, Mode.run_cons, Mode.visible]
  rw [same] at later
  obtain ⟨ps, cut⟩ := later.code fits [] rfl
  exact ⟨_, cut.slash slash⟩

/-- A comment goes on up to the next line feed. -/
lemma Cuts.comment (later : Cuts (Mode.comment.after c) s z) : Cuts .comment (c :: s) z := by
  rintro _ ⟨body, rfl, line⟩
  by_cases newline : c = '\n'
  · subst newline
    obtain ⟨ps, cut⟩ := later [] rfl
    refine ⟨(.comment, 0x2F :: 0x2F :: body) :: (.other, [0x0A]) :: ps,
      .close rfl rfl ?_ ⟨.comment line rfl, .other (by decide) fun slash => ?_, cut.chained⟩
        (.inl rfl) cut.nesting fun h => List.forall_mem_cons.mpr ⟨rfl, cut.filler h⟩⟩
    · rw [spell_cons, spell_cons, cut.spell_eq]
      rfl
    · exact absurd slash (by decide)
  have stays : Mode.comment.after c = .comment := if_neg newline
  rw [stays] at later
  have line : 0x0A ∉ body ++ String.utf8EncodeChar c := by
    rw [List.mem_append]
    exact fun mem => mem.elim line (not_mem_utf8EncodeChar (d := '\n') (by decide) newline)
  obtain ⟨ps, cut⟩ := later _ ⟨_, rfl, line⟩
  exact ⟨ps, .absorb (fun visible => absurd visible (by decide)) (by rwa [stays])⟩

/-- A string goes on up to the next quotation mark that no backslash takes. -/
lemma Cuts.quoted (later : Cuts (Mode.quoted.after c) s z) : Cuts .quoted (c :: s) z := by
  rintro _ ⟨body, rfl, inside⟩
  by_cases escape : c = '\\'
  · subst escape
    obtain ⟨ps, cut⟩ := later _ ⟨body, rfl, inside⟩
    exact ⟨ps, .absorb (fun visible => absurd visible (by decide)) cut⟩
  by_cases quote : c = '"'
  · subst quote
    obtain ⟨ps, cut⟩ := later [] rfl
    refine ⟨(.quoted, 0x22 :: (body ++ [0x22])) :: ps,
      .close rfl rfl ?_ ⟨.quoted ?_, cut.chained⟩ (.inr rfl) cut.nesting cut.filler⟩
    · rw [spell_cons, cut.spell_eq, bytes_cons]
      simp only [List.cons_append, List.append_assoc, List.nil_append]
      rfl
    · rw [← List.append_nil body]
      exact inside [] trivial
  have stays : Mode.quoted.after c = .quoted := by rw [Mode.after, if_neg escape, if_neg quote]
  rw [stays] at later
  obtain ⟨ps, cut⟩ := later _ ⟨body ++ String.utf8EncodeChar c, rfl, fun more h => by
    rw [List.append_assoc]
    exact inside _ (literalBody_append
      (not_mem_utf8EncodeChar (d := '"') (by decide) quote)
      (not_mem_utf8EncodeChar (d := '\\') (by decide) escape) h)⟩
  exact ⟨ps, .absorb (fun visible => absurd visible (by decide)) (by rwa [stays])⟩

/-- A backslash takes the next character of a string, whatever it is. -/
lemma Cuts.escaped (later : Cuts (Mode.escaped.after c) s z) : Cuts .escaped (c :: s) z := by
  rintro _ ⟨body, rfl, inside⟩
  obtain ⟨ps, cut⟩ := later _ ⟨body ++ 0x5C :: String.utf8EncodeChar c, rfl, fun more h => by
    rw [List.append_assoc]
    exact inside _ (literalBody_escape c h)⟩
  refine ⟨ps, .absorb (fun visible => absurd visible (by decide)) ?_⟩
  simpa using cut

end

/-- What was begun and a text behind which the reader is in code are cut into pieces. -/
lemma exists_cut {mode : Mode} {begun : List UInt8} {s : List Char} {z : UInt8}
    (h : Begun mode begun) (ends : (mode.run s).isCode) (fits : Fits mode s z) :
    ∃ ps, Cut mode begun s z ps := by
  induction s generalizing mode begun with
  | nil =>
    cases mode with
    | code =>
      cases h
      exact ⟨[], rfl, trivial, fun _ => rfl, fun _ => List.forall_mem_nil _⟩
    | slash =>
      cases h
      refine ⟨[(.other, [0x2F])], rfl, ⟨.other (by decide) fun _ => fits.1 rfl, trivial⟩,
        fun _ => rfl, fun _ => ?_⟩
      exact List.forall_mem_singleton.mpr rfl
    | comment => cases ends
    | quoted => cases ends
    | escaped => cases ends
  | cons c s ih =>
    have later : Cuts (mode.after c) s z := fun _ h => ih h ends fits.tail
    cases mode with
    | code => exact later.code fits begun h
    | slash => exact later.slash fits begun h
    | comment => exact later.comment begun h
    | quoted => exact later.quoted begun h
    | escaped => exact later.escaped begun h

end EntityForge.Schema

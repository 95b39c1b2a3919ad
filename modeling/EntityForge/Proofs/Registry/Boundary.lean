import EntityForge.Proofs.Registry.Gap
import EntityForge.Proofs.Registry.ImportLine
import Mathlib

/-!
# Reading a registry backwards

Whatever stands before it, a text without quotes, slashes and line feeds begins with a piece of its
own, unless it continues an identifier. So the end of an import line is read in one way only: if it
is not in a literal or a comment of its own line, then its module is a word of code.
-/

namespace EntityForge.Registry

open Text

/-- Whether no literal and no comment can end with a byte or before it. -/
def IsPlain (b : UInt8) : Prop :=
  isQuote b = false ∧ b ≠ 0x2F ∧ b ≠ 0x0A

/-- The bytes of identifiers are plain. -/
lemma isPlain_of_isIdentifierByte {b : UInt8} (h : isIdentifierByte b) : IsPlain b := by
  obtain ⟨quote, -, slash⟩ := of_isIdentifierByte h
  refine ⟨quote, slash, ?_⟩
  rintro rfl
  exact absurd h (by decide)

/-- White space other than a line feed is made of bytes that end no literal and no comment. -/
lemma isPlain_of_isBlank {s : List Char} (blank : ∀ c ∈ s, isBlank c) (line : '\n' ∉ s) :
    ∀ b ∈ bytes s, IsPlain b := by
  have other {c : Char} (ascii : c.toNat < 0x80) (h : isBlank c = false ∨ c = '\n') :
      c.toUInt8 ∉ bytes s := by
    intro mem
    have mem := (mem_bytes_iff ascii).mp mem
    obtain solid | rfl := h
    · rw [blank c mem] at solid
      cases solid
    · exact line mem
  intro b mem
  refine ⟨?_, ?_, ?_⟩
  · by_contra quote
    obtain rfl | rfl | rfl := isQuote_iff.mp (Bool.not_eq_false _ ▸ quote)
    · exact other (c := '"') (by decide) (.inl (by decide)) mem
    · exact other (c := '\'') (by decide) (.inl (by decide)) mem
    · exact other (c := '`') (by decide) (.inl (by decide)) mem
  · rintro rfl
    exact other (c := '/') (by decide) (.inl (by decide)) mem
  · rintro rfl
    exact other (c := '\n') (by decide) (.inr rfl) mem

/-- A piece of several bytes that ends with a plain one is a word, or a comment before a line feed. -/
private lemma Complete.of_isPlain {k : Kind} {bs : List UInt8} {z d : UInt8}
    (complete : Complete k bs z) (long : 2 ≤ bs.length) (ends : bs.getLast? = some d)
    (plain : IsPlain d) : (k = .word ∧ ∀ b ∈ bs, isIdentifierByte b) ∨ z = 0x0A := by
  cases complete with
  | word _ inside _ => exact .inl ⟨rfl, inside⟩
  | punctuation | space => simp at long
  | @literal quote body _ isQuote _ =>
    obtain rfl := Option.some.inj ((getLast?_literal quote body).symm.trans ends)
    rw [plain.1] at isQuote
    cases isQuote
  | blockComment =>
    rw [getLast?_blockComment] at ends
    exact absurd (Option.some.inj ends).symm plain.2.1
  | lineComment _ stop => exact .inr stop

/-- Behind a byte that is none of an identifier, plain bytes begin with a piece of their own; in a gap
they do so behind any byte. -/
lemma exists_boundary {ps : List Piece} {z x : UInt8} {u v : List UInt8}
    (chained : Chained Complete ps z) (hz : z ≠ 0x0A) (split : spell ps = u ++ x :: v)
    (hx : isIdentifierByte x = false ∨ IsGap ps) (plain : ∀ b ∈ v, IsPlain b) :
    ∃ qs rs, ps = qs ++ rs ∧ spell qs = u ++ [x] ∧ spell rs = v := by
  induction ps generalizing u with
  | nil => simp at split
  | cons p ps ih =>
    obtain ⟨k, bs⟩ := p
    obtain ⟨first, others⟩ := chained
    rw [List.append_cons] at split
    have split : bs ++ spell ps = (u ++ [x]) ++ v := split
    obtain ⟨as, hu, rest⟩ | ⟨cs, rfl, rest⟩ := List.append_eq_append_iff.mp split
    · cases as using List.reverseRecOn with
      | nil => exact ⟨[(k, bs)], ps, rfl, by simpa using hu.symm, rest⟩
      | append_singleton as y =>
        rw [← List.append_assoc] at hu
        obtain ⟨rfl, e⟩ := List.append_inj' hu rfl
        cases e
        obtain ⟨qs, rs, rfl, hqs, hrs⟩ := ih others (by rw [rest, List.append_assoc]; rfl)
          (hx.imp_right fun gap => (isGap_cons.mp gap).2)
        exact ⟨(k, bs) :: qs, rs, rfl, by rw [spell_cons, hqs, List.append_assoc], hrs⟩
    · -- A piece that goes on behind the byte ends with one of the plain bytes.
      cases cs using List.reverseRecOn with
      | nil => exact ⟨[(k, u ++ [x] ++ [])], ps, rfl, by simp, rest.symm⟩
      | append_singleton cs d =>
        have long : 2 ≤ (u ++ [x] ++ (cs ++ [d])).length := by
          simp only [List.length_append, List.length_singleton]
          omega
        obtain ⟨rfl, ident⟩ | stop := first.of_isPlain long
          (by rw [← List.append_assoc, List.getLast?_concat]) (plain d (rest ▸ by simp))
        · obtain other | gap := hx
          · have ident := ident x (by simp)
            rw [other] at ident
            cases ident
          · cases (isGap_cons.mp gap).1
        · cases tail : spell ps with
          | nil =>
            rw [lead, tail] at stop
            exact absurd stop hz
          | cons b bs =>
            rw [lead, tail] at stop
            refine absurd stop (plain b ?_).2.2
            rw [rest, tail]
            simp

/-! ### Literals -/

/-- A quote does not stand between two of its kind. -/
private lemma not_literalBody_cons {quote : UInt8} (hq : quote ≠ 0x5C) (rest : List UInt8) :
    ¬ LiteralBody quote (quote :: rest) := by
  cases rest with
  | nil => exact fun h => h.2 rfl
  | cons c rest =>
    rw [LiteralBody, if_neg hq]
    exact fun h => h.1 rfl

/-- A quote between two of its kind stands behind a backslash. -/
private lemma eq_backslash_of_literalBody {quote y : UInt8} (hq : quote ≠ 0x5C)
    {front rest : List UInt8} (h : LiteralBody quote (front ++ y :: quote :: rest)) :
    y = 0x5C := by
  generalize e : front ++ y :: quote :: rest = bs at h
  fun_induction LiteralBody quote bs generalizing front with
  | case1 => simp at e
  | case2 b => cases front <;> simp at e
  | case3 c bs ih =>
    cases front with
    | nil => exact (List.cons.inj e).1
    | cons b front =>
      cases front with
      | nil =>
        cases e
        exact absurd h (not_literalBody_cons hq rest)
      | cons d front => exact ih (List.cons.inj (List.cons.inj e).2).2 h
  | case4 b c bs escape ih =>
    cases front with
    | nil =>
      cases e
      exact absurd h.2 (not_literalBody_cons hq rest)
    | cons b front => exact ih (List.cons.inj e).2 h.2

/-- A piece that ends with a quote is a literal in such quotes. -/
private lemma Complete.eq_literal {k : Kind} {bs : List UInt8} {z quote : UInt8}
    (complete : Complete k bs z) (hz : z ≠ 0x0A) (hq : isQuote quote)
    (ends : bs.getLast? = some quote) :
    ∃ body, (k, bs) = (.literal, quote :: (body ++ [quote])) ∧ LiteralBody quote body := by
  cases complete with
  | word _ inside _ =>
    have other := (of_isIdentifierByte (inside _ (List.mem_of_getLast? ends))).1
    rw [hq] at other
    cases other
  | @punctuation b _ mark _ =>
    obtain rfl : b = quote := Option.some.inj ends
    rw [(isMarkByte_iff.mp mark).1] at hq
    cases hq
  | @space b _ space =>
    obtain rfl : b = quote := Option.some.inj ends
    rw [(of_isSpaceByte space).1] at hq
    cases hq
  | lineComment _ stop => exact absurd stop hz
  | blockComment =>
    rw [getLast?_blockComment] at ends
    exact absurd (Option.some.inj ends).symm (of_isQuote hq).2
  | @literal q body _ _ inside =>
    obtain rfl : q = quote := Option.some.inj ((getLast?_literal _ _).symm.trans ends)
    exact ⟨body, rfl, inside⟩

/-- A text that ends with something in quotes, and has no such quote in it, is read with that as its
last piece. -/
lemma exists_literal {ps : List Piece} {z y quote : UInt8} {u body : List UInt8}
    (chained : Chained Complete ps z) (hz : z ≠ 0x0A) (hq : isQuote quote) (hy : y ≠ 0x5C)
    (none : quote ∉ body) (split : spell ps = u ++ y :: quote :: (body ++ [quote])) :
    ∃ qs, ps = qs ++ [(.literal, quote :: (body ++ [quote]))] ∧ spell qs = u ++ [y] := by
  cases ps using List.reverseRecOn with
  | nil => simp at split
  | append_singleton qs p =>
    have last := (chained_append.mp chained).2.1
    have ne : p.2 ≠ [] := by
      intro none
      rw [none] at last
      exact scans.ne_nil _ _ last
    have whole : spell qs ++ p.2 = (u ++ y :: quote :: body) ++ [quote] := by
      simpa using split
    have ends : p.2.getLast? = some quote := by
      rw [← List.getLast?_append_of_ne_nil (spell qs) ne, whole, List.getLast?_concat]
    obtain ⟨found, e, inside⟩ := last.eq_literal hz hq ends
    have e : p = (.literal, quote :: (found ++ [quote])) := e
    rw [e] at whole ⊢
    have whole : spell qs ++ quote :: found = (u ++ [y]) ++ quote :: body := by
      rw [← List.cons_append, ← List.append_assoc] at whole
      rw [List.append_cancel_right whole, List.append_assoc]
      rfl
    obtain ⟨as, hu, rest⟩ | ⟨cs, hqs, rest⟩ := List.append_eq_append_iff.mp whole
    · cases as using List.reverseRecOn with
      | nil =>
        rw [List.append_nil] at hu
        exact ⟨qs, by rw [(List.cons.inj rest).2], hu.symm⟩
      | append_singleton as x =>
        -- The literal would begin before the quote that is behind `y`.
        rw [← List.append_assoc] at hu
        obtain ⟨-, e⟩ := List.append_inj' hu rfl
        cases e
        cases as with
        | nil =>
          obtain ⟨rfl, rfl⟩ := List.cons.inj rest
          exact absurd inside (not_literalBody_cons (of_isQuote hq).1 body)
        | cons x as =>
          have found_eq : found = as ++ y :: quote :: body :=
            (List.cons.inj rest).2.trans (by simp)
          rw [found_eq] at inside
          exact absurd (eq_backslash_of_literalBody (of_isQuote hq).1 inside) hy
    · cases cs with
      | nil =>
        rw [List.append_nil] at hqs
        exact ⟨qs, by rw [(List.cons.inj rest).2], hqs⟩
      | cons x cs =>
        rw [(List.cons.inj rest).2] at none
        exact absurd (List.mem_append_right cs List.mem_cons_self) none

/-! ### Import lines -/

/-- The pieces of an import line from its module up to its path. -/
def importTail (root : String) (name : EntityName) : List Piece :=
  [wordPiece (bytesOf name.module), (.space, [0x20]), markPiece 0x7D, (.space, [0x20]),
    wordPiece (bytesOf "from"), (.space, [0x20]),
    (.literal, 0x27 :: (bytes (modulePath root name) ++ [0x27]))]

/-- What stands between the bracket of an import line and its path is plain. -/
private lemma isPlain_between {module : String} (ident : IsIdentifier module) :
    ∀ b ∈ bytesOf module ++ [0x20, 0x7D, 0x20] ++ bytesOf "from" ++ [0x20], IsPlain b := by
  have other (b : UInt8) (mem : b ∈ [0x20, 0x7D, 0x20] ∨ b ∈ [0x20]) : IsPlain b := by
    obtain rfl | rfl : b = 0x20 ∨ b = 0x7D := by simpa [or_comm] using mem
    all_goals exact ⟨by decide, by decide, by decide⟩
  intro b mem
  rw [List.mem_append, List.mem_append, List.mem_append] at mem
  obtain ((mem | mem) | mem) | mem := mem
  · exact isPlain_of_isIdentifierByte (ident b mem)
  · exact other b (.inl mem)
  · exact isPlain_of_isIdentifierByte ((by decide +kernel : IsIdentifier "from") b mem)
  · exact other b (.inr mem)

/-- A text that ends with an import line, and plain bytes behind it, is read with the module of the
line as code. -/
lemma exists_importTail {root : String} {name : EntityName} (hroot : '\'' ∉ root.toList)
    (title : IsIdentifier name.title) (slug : IsIdentifier name.slug) {ps : List Piece}
    {z : UInt8} {front back : List UInt8} (chained : Chained Complete ps z) (hz : z ≠ 0x0A)
    (plain : ∀ b ∈ back, IsPlain b)
    (split : spell ps = front ++ (bytes (importLine root name).toList ++ back)) :
    ∃ qs rs, ps = qs ++ (importTail root name ++ rs) ∧ spell rs = 0x3B :: back := by
  have quote : 0x27 ∉ bytes (modulePath root name) :=
    mt (mem_bytes_iff (c := '\'') (by decide)).mp (quote_not_mem_modulePath hroot slug)
  have line : bytes (importLine root name).toList =
      bytesOf "import" ++ [0x20, 0x7B] ++ 0x20 :: (bytesOf name.module ++ [0x20, 0x7D, 0x20] ++
        bytesOf "from" ++ 0x20 :: 0x27 :: (bytes (modulePath root name) ++ [0x27, 0x3B])) := by
    rw [← spell_importPieces]
    simp [importPieces, wordPiece, markPiece]
  -- The semicolon and what follows it.
  obtain ⟨ps, rs, rfl, spelled, hrs⟩ := exists_boundary (x := 0x27) (v := 0x3B :: back)
    (u := front ++ (bytesOf "import" ++ [0x20, 0x7B] ++ 0x20 :: (bytesOf name.module ++
      [0x20, 0x7D, 0x20] ++ bytesOf "from" ++ 0x20 :: 0x27 :: bytes (modulePath root name))))
    chained hz (by rw [split, line]; simp) (.inl (by decide))
    (List.forall_mem_cons.mpr ⟨⟨by decide, by decide, by decide⟩, plain⟩)
  have chained := (chained_append.mp chained).1
  rw [lead, hrs, List.headD_cons] at chained
  -- The path.
  obtain ⟨ps, rfl, shorter⟩ := @exists_literal _ _ 0x20 0x27
    (front ++ (bytesOf "import" ++ [0x20, 0x7B] ++ 0x20 :: (bytesOf name.module ++
      [0x20, 0x7D, 0x20] ++ bytesOf "from")))
    (bytes (modulePath root name)) chained (by decide) (by decide) (by decide) quote (by rw [spelled]; simp)
  have chained := (chained_append.mp chained).1
  rw [lead_cons] at chained
  -- What stands between the bracket and the path.
  obtain ⟨qs, ps, rfl, -, middle⟩ := exists_boundary (x := 0x20)
    (v := bytesOf name.module ++ [0x20, 0x7D, 0x20] ++ bytesOf "from" ++ [0x20])
    (u := front ++ (bytesOf "import" ++ [0x20, 0x7B]))
    chained (by decide) (by rw [shorter]; simp) (.inl (by decide)) (isPlain_between title.module)
  have chained := (chained_append.mp chained).2
  have known : Chained Complete ((importTail root name).dropLast) 0x27 :=
    (@chained_append _ _ _ ((importPieces root name).drop 10) _).mp
      (@chained_append _ _ ((importPieces root name).take 4) _ _ |>.mp
        (chained_importPieces hroot title slug 0x0A)).2 |>.1
  have unique : ps = (importTail root name).dropLast :=
    scans.eq_of_spell_eq chained known (by rw [middle]; simp [importTail, wordPiece, markPiece])
  refine ⟨qs, rs, ?_, hrs⟩
  rw [unique]
  simp [importTail]

end EntityForge.Registry

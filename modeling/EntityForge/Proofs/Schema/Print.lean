import EntityForge.Proofs.Schema.Balance
import EntityForge.Proofs.Schema.Name
import Mathlib

/-!
# Schemas that were written down

A schema that is written as a list of definitions, each with a balanced body, is read back as the
models among them: behind every closing brace the scanner is where it was at the beginning.
-/

namespace EntityForge.Schema

open Text

/-- A block with what stands before it: a gap, a keyword and a name. -/
structure Definition where
  gap : String
  keyword : String
  name : String
  body : String
  isGap : IsGap gap.toList
  isKeyword : IsWord keyword
  isName : IsWord name
  balanced : Balanced body.toList

/-- How a definition is written. -/
def Definition.text (d : Definition) : List Char :=
  d.gap.toList ++ (d.keyword.toList ++ ' ' ::
    (d.name.toList ++ ' ' :: '\x7b' :: (d.body.toList ++ ['\x7d'])))

/-- A schema of certain definitions. -/
def print (ds : List Definition) : String :=
  String.ofList (ds.flatMap (·.text))

/-! ### Pieces of a definition -/

/-- A word as a piece. -/
def wordPiece (s : String) : Piece :=
  (.word, bytesOf s)

/-- A word before a space is complete. -/
lemma complete_wordPiece {s : String} (h : IsWord s) : Complete .word (bytesOf s) 0x20 := by
  refine .word (fun empty => h.1 ?_) (forall_isWordByte_iff.mpr h.2) (by decide)
  exact String.toList_eq_nil_iff.mp (bytes_eq_nil empty)

/-- The pieces of a gap, which ends where a word begins. -/
lemma IsGap.exists_pieces {s : List Char} (h : IsGap s) {z : UInt8} (word : isWordByte z) :
    ∃ ps : List Piece, spell ps = bytes s ∧ Chained Complete ps z ∧
      ∀ p ∈ ps, p.1.isToken = false := by
  have fits : Fits .code s z := by
    refine ⟨fun _ => ?_, fun _ c mem => (h.2 c mem).1⟩
    rintro rfl
    exact absurd word (by decide)
  obtain ⟨ps, cut⟩ := @exists_cut .code [] s z rfl h.1.1 fits
  exact ⟨ps, cut.spell_eq, cut.chained, cut.filler h.2⟩

/-- The pieces of a body, before a closing brace. -/
lemma Balanced.exists_pieces {s : List Char} (h : Balanced s) :
    ∃ ps : List Piece, spell ps = bytes s ∧ Chained Complete ps 0x7D ∧
      nesting? 0 (ps.map (·.1)) = some 0 := by
  have fits : Fits .code s 0x7D := ⟨fun _ => by decide, fun word => absurd word (by decide)⟩
  obtain ⟨ps, cut⟩ := @exists_cut .code [] s 0x7D rfl h.1 fits
  exact ⟨ps, cut.spell_eq, cut.chained, (cut.nesting 0).trans h.2⟩

/-- The pieces between the gap and the body of a definition. -/
def Definition.header (d : Definition) : List Piece :=
  [wordPiece d.keyword, (.other, [0x20]), wordPiece d.name, (.other, [0x20]), (.opening, [0x7B])]

/-- The header of a definition is cut into pieces, whatever follows its brace. -/
lemma Definition.chained_header (d : Definition) (z : UInt8) : Chained Complete d.header z :=
  ⟨complete_wordPiece d.isKeyword, .other (by decide) fun e => absurd e (by decide),
    complete_wordPiece d.isName, .other (by decide) fun e => absurd e (by decide), .opening, trivial⟩

/-- The tokens of a body lead from one depth to another. -/
lemma closing?_placed {ps : List Piece} {start depth inner : Nat} {rest : List Token}
    (h : nesting? depth (ps.map (·.1)) = some inner) :
    closing? depth ((placed start ps).filter (·.kind.isToken) ++ rest) = closing? inner rest := by
  induction ps generalizing start depth with
  | nil =>
    cases h
    rfl
  | cons p ps ih =>
    obtain ⟨k, bs⟩ := p
    rw [placed]
    cases k with
    | word => exact ih h
    | opening => exact ih h
    | closing =>
      cases depth with
      | zero => cases h
      | succ depth => exact ih h
    | comment => exact ih h
    | quoted => exact ih h
    | other => exact ih h

/-- Pieces without words and braces have no tokens. -/
lemma filter_placed {ps : List Piece} (h : ∀ p ∈ ps, p.1.isToken = false) (start : Nat) :
    (placed start ps).filter (·.kind.isToken) = [] := by
  induction ps generalizing start with
  | nil => rfl
  | cons p ps ih =>
    obtain ⟨first, others⟩ := List.forall_mem_cons.mp h
    rw [placed, List.filter_cons_of_neg (by simpa using first), ih others]

namespace Definition

variable (d : Definition) (start : Nat)

/-! ### Tokens of a definition -/

/-- The keyword of a definition that begins at a place. -/
def keyToken : Token :=
  ⟨.word, start + (bytesOf d.gap).length, bytesOf d.keyword⟩

/-- The name of a definition that begins at a place. -/
def nameToken : Token :=
  ⟨.word, (d.keyToken start).stop + 1, bytesOf d.name⟩

/-- The opening brace of a definition that begins at a place. -/
def openToken : Token :=
  ⟨.opening, (d.nameToken start).stop + 1, [0x7B]⟩

/-- The closing brace of a definition that begins at a place. -/
def closeToken : Token :=
  ⟨.closing, (d.openToken start).stop + (bytesOf d.body).length, [0x7D]⟩

/-- A definition ends with its closing brace. -/
lemma stop_closeToken : (d.closeToken start).stop = start + (bytes d.text).length := by
  simp only [Lexeme.stop, closeToken, openToken, nameToken, keyToken, text, bytesOf, bytes_append,
    bytes_cons, bytes_nil, List.length_append, List.append_nil, String.length_utf8EncodeChar,
    List.length_singleton]
  rw [show ' '.utf8Size = 1 from rfl, show '\x7b'.utf8Size = 1 from rfl,
    show '\x7d'.utf8Size = 1 from rfl]
  omega

/-- The pieces of a definition, up to its closing brace. -/
lemma exists_pieces : ∃ gs qs : List Piece,
    spell gs = bytesOf d.gap ∧ (∀ p ∈ gs, p.1.isToken = false) ∧
    spell qs = bytesOf d.body ∧ nesting? 0 (qs.map (·.1)) = some 0 ∧
    Chained Complete (gs ++ (d.header ++ qs)) 0x7D := by
  obtain ⟨b, part, keyword⟩ := List.exists_cons_of_ne_nil
    (fun empty => d.isKeyword.1 (String.toList_eq_nil_iff.mp (bytes_eq_nil empty)))
  have word : isWordByte b := by
    refine forall_isWordByte_iff.mpr d.isKeyword.2 b ?_
    rw [keyword]
    exact List.mem_cons_self
  obtain ⟨gs, gap, before, plain⟩ := d.isGap.exists_pieces word
  obtain ⟨qs, body, inside, nesting⟩ := d.balanced.exists_pieces
  refine ⟨gs, qs, gap, plain, body, nesting, chained_append.mpr ⟨?_, ?_⟩⟩
  · convert before
    rw [header, wordPiece, bytesOf, keyword]
    rfl
  · exact chained_append.mpr ⟨d.chained_header _, inside⟩

/-- The tokens of a definition, and what is read behind them. -/
lemma tokens_append (rest : List UInt8) : ∃ inside : List Token,
    (∀ more, closing? 0 (inside ++ more) = closing? 0 more) ∧
    (lexemes next start (bytes d.text ++ rest)).filter (·.kind.isToken) =
      d.keyToken start :: d.nameToken start :: d.openToken start :: (inside ++ d.closeToken start ::
        (lexemes next (d.closeToken start).stop rest).filter (·.kind.isToken)) := by
  obtain ⟨gs, qs, gap, plain, body, nesting, chained⟩ := d.exists_pieces
  have split : bytes d.text ++ rest = spell (gs ++ (d.header ++ qs)) ++ 0x7D :: rest := by
    simp only [text, header, wordPiece, spell_append, spell_cons, gap, body, bytesOf, bytes_append,
      bytes_cons, bytes_nil, List.append_assoc, List.cons_append, List.nil_append]
    rfl
  have size : start + (spell (gs ++ (d.header ++ qs))).length = (d.closeToken start).start := by
    have length := congrArg List.length split
    have stop := d.stop_closeToken start
    rw [Lexeme.stop, closeToken, List.length_singleton] at stop
    rw [List.length_append, List.length_append, List.length_cons] at length
    rw [closeToken]
    omega
  refine ⟨(placed (d.openToken start).stop qs).filter (·.kind.isToken),
    fun more => closing?_placed nesting, ?_⟩
  rw [split, scans.lexemes_append chained, lexemes_cons, size, placed_append, placed_append,
    List.filter_append, List.filter_append, List.filter_append, filter_placed plain, gap]
  have header : (placed (start + (bytesOf d.gap).length) d.header).filter (·.kind.isToken) =
      [d.keyToken start, d.nameToken start, d.openToken start] := rfl
  have opened : start + (bytesOf d.gap).length + (spell d.header).length =
      (d.openToken start).stop := by
    simp only [Definition.header, wordPiece, spell_cons, spell_nil, List.length_append,
      List.length_nil, List.length_singleton, Lexeme.stop, openToken, nameToken, keyToken]
    omega
  rw [header, opened, List.nil_append, List.append_assoc]
  rfl

/-- The name and the body of a definition that stands in a text. -/
lemma model_eq {s front rest : List Char} (split : s = front ++ (d.text ++ rest))
    (here : start = (bytes front).length) :
    Block.model s ⟨⟨(d.nameToken start).start, (d.nameToken start).stop⟩,
      ⟨(d.openToken start).stop, (d.closeToken start).start⟩⟩ = ⟨d.name, d.body⟩ := by
  have space : (bytes [' ']).length = 1 := rfl
  have brace : (bytes ['\x7b']).length = 1 := rfl
  have name : Span.slice? ⟨(d.nameToken start).start, (d.nameToken start).stop⟩ s =
      some d.name.toList := by
    refine slice?_eq_some (a := front ++ (d.gap.toList ++ (d.keyword.toList ++ [' '])))
      (c := ' ' :: '\x7b' :: (d.body.toList ++ ['\x7d']) ++ rest) ?_ ?_ rfl
    · simp [split, text]
    · simp only [here, nameToken, keyToken, Lexeme.stop, bytes_append, List.length_append, bytesOf,
        space]
      omega
  have body : Span.slice? ⟨(d.openToken start).stop, (d.closeToken start).start⟩ s =
      some d.body.toList := by
    refine slice?_eq_some (a := front ++ (d.gap.toList ++ (d.keyword.toList ++ ([' '] ++
      (d.name.toList ++ ([' '] ++ ['\x7b'])))))) (c := ['\x7d'] ++ rest) ?_ ?_ rfl
    · simp [split, text]
    · simp only [here, openToken, nameToken, keyToken, Lexeme.stop, bytes_append, List.length_append,
        bytesOf, space, brace, List.length_singleton]
      omega
  rw [Block.model, Span.slice, Span.slice, name, body, Option.getD_some, Option.getD_some,
    String.ofList_toList, String.ofList_toList]

end Definition

/-! ### Reading definitions -/

/-- A text with the bytes of an ASCII text is that text. -/
lemma eq_of_bytes {s t : List Char} (ascii : ∀ c ∈ t, c.toNat < 0x80) (h : bytes s = bytes t) :
    s = t := by
  induction t generalizing s with
  | nil => exact bytes_eq_nil h
  | cons c t ih =>
    obtain ⟨first, others⟩ := List.forall_mem_cons.mp ascii
    rw [bytes_cons, utf8EncodeChar_of_ascii first] at h
    obtain ⟨u, v, rfl, hu, hv⟩ := exists_split_char (a := []) first h
    rw [bytes_eq_nil hu, ih others hv]
    rfl

/-- The block of a definition is a model if its keyword says so. -/
lemma Definition.ofWords?_eq (d : Definition) (start : Nat) (body : Span) :
    Block.ofWords? (some (d.keyToken start)) (some (d.nameToken start)) body =
      if d.keyword = "model" then
        some ⟨⟨(d.nameToken start).start, (d.nameToken start).stop⟩, body⟩
      else none := by
  have same : (d.keyToken start).bytes = bytesOf "model" ↔ d.keyword = "model" := by
    refine ⟨fun h => String.toList_injective (eq_of_bytes (by simp) h), fun h => ?_⟩
    rw [keyToken, h]
  simp only [Block.ofWords?, same]

/-- Definitions behind some text are read as the models among them. -/
lemma models_append (front : List Char) (ds : List Definition) :
    (blocksAfter none none ((lexemes next (bytes front).length
        (bytes (ds.flatMap (·.text)))).filter (·.kind.isToken))).map
          (·.model (front ++ ds.flatMap (·.text))) =
      (ds.filter (·.keyword = "model")).map fun d => ⟨d.name, d.body⟩ := by
  induction ds generalizing front with
  | nil =>
    rw [List.flatMap_nil, bytes_nil, lexemes, List.filter_nil, blocksAfter]
    rfl
  | cons d ds ih =>
    obtain ⟨inside, body, read⟩ :=
      d.tokens_append (bytes front).length (bytes (ds.flatMap (·.text)))
    have stop : (d.closeToken (bytes front).length).stop = (bytes (front ++ d.text)).length := by
      rw [d.stop_closeToken, bytes_append, List.length_append]
    have closes (more : List Token) :
        closing? 0 (inside ++ d.closeToken (bytes front).length :: more) =
          some (d.closeToken (bytes front).length, more) := body _
    have others := ih (front ++ d.text)
    rw [← stop, List.append_assoc] at others
    rw [List.flatMap_cons, bytes_append, read, blocksAfter_word rfl, blocksAfter_word rfl,
      blocksAfter_opening rfl (closes _), List.map_append, others, d.ofWords?_eq,
      List.filter_cons]
    by_cases model : d.keyword = "model"
    · simp only [model, if_true, decide_true, Option.toList_some, List.map_cons, List.map_nil,
        d.model_eq _ rfl rfl, List.singleton_append]
    · simp only [model, if_false, decide_false, Option.toList_none, List.map_nil, List.nil_append,
        Bool.false_eq_true]

/-- A schema that is written down is read back: its models are the definitions whose keyword is
`model`, in their order and with their bodies as they were written. -/
theorem models_print (ds : List Definition) :
    models (print ds) = ((ds.filter (·.keyword = "model")).map fun d => ⟨d.name, d.body⟩) ∧
      names (print ds) = (ds.filter (·.keyword = "model")).map fun d => ⟨d.name⟩ := by
  have read : models (print ds) =
      (ds.filter (·.keyword = "model")).map fun d => ⟨d.name, d.body⟩ := by
    rw [models, print, String.toList_ofList]
    exact models_append [] ds
  refine ⟨read, ?_⟩
  rw [names, read, List.map_map]
  rfl

example :
    let user : Definition :=
      ⟨"// model Old \x7b\n", "model", "User", " a \"\x7d\" \x7b \x7d ", by decide +kernel,
        by decide +kernel, by decide +kernel, by decide +kernel⟩
    let role : Definition :=
      ⟨"\n", "enum", "Role", "", by decide +kernel, by decide +kernel, by decide +kernel,
        by decide +kernel⟩
    models (print [user, role]) = [⟨"User", " a \"\x7d\" \x7b \x7d "⟩] := by
  decide +kernel

end EntityForge.Schema

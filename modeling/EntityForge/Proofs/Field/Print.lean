import EntityForge.Field.Body
import EntityForge.Proofs.Field.Token
import EntityForge.Proofs.Text.Line
import Mathlib

/-!
# Fields that are written down

Fields are written token by token, on as many lines as one likes, with lines between them that
declare nothing. However they are laid out, the same fields are read back.
-/

namespace EntityForge.Field

open Text

/-! ### Layouts -/

/-- White space on one line. -/
def IsSpace (s : List Char) : Prop :=
  ∀ c ∈ s, isBlank c ∧ c ≠ '\n'

/-- Whether characters are a space can be checked one by one. -/
instance (s : List Char) : Decidable (IsSpace s) :=
  List.decidableBAll _ s

/-- The tokens of a field. -/
def words (field : Field) : List String :=
  field.name :: field.type :: field.attributes

/-- Whether the parts of a field are closed tokens of which only the attributes look like
attributes. -/
structure IsPrintable (field : Field) : Prop where
  closed : ∀ word ∈ field.words, IsClosed word.toList
  name : isAttribute field.name.toList = false
  type : isAttribute field.type.toList = false
  attributes : ∀ a ∈ field.attributes, isAttribute a.toList

/-- A token with the white space before it. -/
structure Word where
  gap : List Char
  token : String

/-- A token as it is written. -/
def Word.text (word : Word) : List Char :=
  word.gap ++ word.token.toList

/-- What may follow the last token of a line: white space, and behind it a comment. -/
inductive IsEnding : List Char → Prop where
  | space {s : List Char} : IsSpace s → IsEnding s
  | comment {gap s : List Char} : gap ≠ [] → IsSpace gap → '\n' ∉ s →
    IsEnding (gap ++ '/' :: '/' :: s)

/-- What a line may hold that declares nothing. -/
inductive IsFiller : List Char → Prop where
  | blank : IsFiller []
  | comment (s : List Char) : IsFiller ('/' :: '/' :: s)
  | blockAttribute (s : List Char) : IsFiller ('@' :: '@' :: s)
  | opening : IsFiller ['\x7b']
  | closing : IsFiller ['\x7d']

/-- A line of a body. A field stands on one line with all its tokens. -/
inductive Line where
  /-- Fields, with white space before the first token and between any two. -/
  | declares (fields : List Field) (words : List Word) (ending : List Char)
    (printable : ∀ field ∈ fields, field.IsPrintable)
    (spelled : words.map (·.token) = fields.flatMap Field.words)
    (spaced : ∀ word ∈ words, IsSpace word.gap)
    (apart : ∀ word ∈ words.tail, word.gap ≠ [])
    (ends : IsEnding ending)
  /-- A line that declares nothing, with white space around it. -/
  | filler (before content after : List Char) (indent : IsSpace before) (is : IsFiller content)
    (oneLine : '\n' ∉ content) (trailing : IsSpace after)

namespace Line

/-- The fields that a line declares. -/
def fields : Line → List Field
  | .declares fields .. => fields
  | .filler .. => []

/-- A line as it is written. -/
def text : Line → List Char
  | .declares _ words ending .. => words.flatMap Word.text ++ ending
  | .filler before content after .. => before ++ content ++ after

end Line

/-- A body of lines. -/
def print (layout : List Line) : String :=
  String.ofList (['\n'].intercalate (layout.map Line.text))

/-! ### Spaced tokens -/

section

variable {words : List Word} {ending : List Char}

/-- A space ends the token before it. -/
lemma IsSpace.breaks {s : List Char} (h : IsSpace s) : Breaks s :=
  fun c first => (h c (List.mem_of_head? first)).1

/-- A space is white. -/
lemma IsSpace.isBlank {s : List Char} (h : IsSpace s) : ∀ c ∈ s, isBlank c :=
  fun c mem => (h c mem).1

/-- A space has no line feed. -/
lemma IsSpace.oneLine {s : List Char} (h : IsSpace s) : '\n' ∉ s :=
  fun mem => (h _ mem).2 rfl

/-- White space breaks a token off, whatever follows. -/
lemma IsSpace.breaks_append {s : List Char} (h : IsSpace s) (ne : s ≠ []) (rest : List Char) :
    Breaks (s ++ rest) := by
  intro c first
  rw [List.head?_append_of_ne_nil _ ne] at first
  exact h.breaks c first

namespace IsEnding

/-- An ending ends the token before it. -/
lemma breaks (h : IsEnding ending) : Breaks ending := by
  cases h with
  | space space => exact space.breaks
  | comment ne space => exact space.breaks_append ne _

/-- Behind the last token there are no others. -/
lemma tokens_eq (h : IsEnding ending) : tokens ending = [] := by
  cases h with
  | space space => rw [← List.append_nil ending, tokens_append_of_blank space.isBlank, tokens_nil]
  | comment ne space => rw [tokens_append_of_blank space.isBlank, tokens_comment]

/-- An ending has no line feed. -/
lemma oneLine (h : IsEnding ending) : '\n' ∉ ending := by
  cases h with
  | space space => exact space.oneLine
  | comment ne space oneLine =>
    rw [List.mem_append, not_or]
    exact ⟨space.oneLine, by simpa using oneLine⟩

end IsEnding

/-- What is left of the end of a line when its white space is dropped. -/
lemma IsEnding.dropEnd (h : IsEnding ending) : IsEnding (dropEnd isBlank ending) := by
  cases h with
  | space space =>
    have nothing : Text.dropEnd isBlank ending = [] :=
      dropEnd_append (p := isBlank) (s := []) space.isBlank
    rw [nothing]
    exact .space nofun
  | @comment gap s ne space oneLine =>
    obtain ⟨dropped, split, -⟩ := exists_dropEnd isBlank s
    have kept : Text.dropEnd isBlank (gap ++ '/' :: '/' :: s) =
        gap ++ '/' :: '/' :: Text.dropEnd isBlank s := by
      have last : ∀ c, (gap ++ ['/', '/']).getLast? = some c → isBlank c = false := by
        intro c last
        rw [List.getLast?_append_of_ne_nil _ (List.cons_ne_nil _ _)] at last
        exact Option.some.inj last ▸ by decide
      have kept := dropEnd_append_of_not last s
      rwa [List.append_assoc, List.append_assoc] at kept
    rw [kept]
    refine .comment ne space fun mem => oneLine ?_
    rw [split]
    exact List.mem_append_left _ mem

/-- Tokens are broken off by the gap before the next one, and the last one by what ends the line. -/
lemma breaks_words (spaced : ∀ word ∈ words, IsSpace word.gap) (apart : ∀ word ∈ words, word.gap ≠ [])
    (breaks : Breaks ending) : Breaks (words.flatMap Word.text ++ ending) := by
  cases words with
  | nil => exact breaks
  | cons word words =>
    rw [List.flatMap_cons, Word.text, List.append_assoc, List.append_assoc]
    exact (spaced word List.mem_cons_self).breaks_append (apart word List.mem_cons_self) _

/-- Spaced tokens are read one by one, and then what follows them. -/
lemma tokens_words (closed : ∀ word ∈ words, IsClosed word.token.toList)
    (spaced : ∀ word ∈ words, IsSpace word.gap) (apart : ∀ word ∈ words.tail, word.gap ≠ [])
    (breaks : Breaks ending) :
    tokens (words.flatMap Word.text ++ ending) = words.map (·.token.toList) ++ tokens ending := by
  induction words with
  | nil => rfl
  | cons word words ih =>
    obtain ⟨here, closed⟩ := List.forall_mem_cons.mp closed
    obtain ⟨gap, spaced⟩ := List.forall_mem_cons.mp spaced
    have breaks := breaks_words spaced apart breaks
    rw [List.flatMap_cons, Word.text, List.append_assoc, List.append_assoc,
      tokens_append_of_blank gap.isBlank, here.tokens_append breaks, List.map_cons,
      ih closed spaced fun word mem => apart word (List.mem_of_mem_tail mem)]
    rfl

/-- Spaced tokens do not end with white space. -/
lemma isBlank_of_getLast?_words (closed : ∀ word ∈ words, IsClosed word.token.toList) {c : Char}
    (last : (words.flatMap Word.text).getLast? = some c) : isBlank c = false := by
  cases words using List.reverseRecOn with
  | nil => cases last
  | append_singleton words word =>
    have closed := closed word (by simp)
    rw [List.flatMap_append, List.flatMap_singleton, Word.text, ← List.append_assoc,
      List.getLast?_append_of_ne_nil _ closed.ne_nil] at last
    exact closed.isBlank_of_getLast? last

/-- Trimming a line of spaced tokens takes away its indentation and what ends it. -/
lemma trim_words {word : Word} (closed : ∀ w ∈ word :: words, IsClosed w.token.toList)
    (indent : IsSpace word.gap) :
    trim ((word :: words).flatMap Word.text ++ ending) =
      (⟨[], word.token⟩ :: words).flatMap Word.text ++ dropEnd isBlank ending := by
  obtain ⟨here, others⟩ := List.forall_mem_cons.mp closed
  obtain ⟨c, t, first, solid, -⟩ := here.exists_cons
  rw [List.flatMap_cons, Word.text, List.append_assoc, List.append_assoc,
    trim_append_left indent.isBlank, ← List.append_assoc]
  refine trim_append_of_solid ?_ ?_ ?_ ending
  · exact fun empty => here.ne_nil (List.append_eq_nil_iff.mp empty).1
  · intro d head
    rw [first] at head
    exact Option.some.inj head ▸ solid
  · intro d last
    have closed : ∀ w ∈ (⟨[], word.token⟩ : Word) :: words, IsClosed w.token.toList :=
      List.forall_mem_cons.mpr ⟨here, others⟩
    exact isBlank_of_getLast?_words closed last

/-- Spaced tokens are on one line. -/
lemma oneLine_words (closed : ∀ word ∈ words, IsClosed word.token.toList)
    (spaced : ∀ word ∈ words, IsSpace word.gap) : '\n' ∉ words.flatMap Word.text := by
  rw [List.mem_flatMap]
  rintro ⟨word, mem, here⟩
  rw [Word.text, List.mem_append] at here
  obtain here | here := here
  · exact (spaced word mem).oneLine here
  · exact (closed word mem).oneLine here

end

/-! ### Lines -/

/-- A line that begins with a closed text that is no attribute, and goes on, declares something. -/
lemma IsClosed.isSkipped_append {s rest : List Char} (h : IsClosed s) (name : isAttribute s = false)
    (ne : rest ≠ []) (breaks : Breaks rest) : isSkipped (s ++ rest) = false := by
  obtain ⟨c, t, rfl, -, plain, -⟩ := h.exists_cons
  have plain := startsComment_append h.ne_nil plain breaks
  have slashes : "//".toList.isPrefixOf (c :: t ++ rest) = false := by
    by_contra comment
    obtain ⟨more, split⟩ := List.isPrefixOf_iff_prefix.mp (Bool.not_eq_false _ ▸ comment)
    rw [startsComment_iff.mpr ⟨more, split.symm⟩] at plain
    cases plain
  have ats : "@@".toList.isPrefixOf (c :: t ++ rest) = false := by
    by_contra block
    obtain ⟨more, split⟩ := List.isPrefixOf_iff_prefix.mp (Bool.not_eq_false _ ▸ block)
    have first : '@' = c := (List.cons.inj split).1
    rw [← first] at name
    exact absurd name (by simp [isAttribute])
  have brace (b : Char) : (c :: t ++ rest == [b]) = false := by
    rw [beq_eq_false_iff_ne]
    intro same
    have empty := (List.cons.inj same).2
    exact ne (List.append_eq_nil_iff.mp empty).2
  rw [isSkipped, slashes, ats, brace, brace]
  rfl

/-- What a filler line holds is skipped. -/
lemma IsFiller.isSkipped_trim {s : List Char} (h : IsFiller s) : isSkipped (trim s) := by
  have pair {a : Char} (solid : isBlank a = false) (s : List Char) :
      trim (a :: a :: s) = a :: a :: dropEnd isBlank s := by
    refine trim_append_of_solid (s := [a, a]) (List.cons_ne_nil _ _) ?_ ?_ s
    · intro c first
      exact Option.some.inj first ▸ solid
    · intro c last
      exact Option.some.inj last ▸ solid
  cases h with
  | blank => decide
  | comment s => simp [pair (a := '/') (by decide), isSkipped]
  | blockAttribute s => simp [pair (a := '@') (by decide), isSkipped]
  | opening => decide
  | closing => decide

/-- The tokens of fields spell these fields. -/
lemma ofTokens_words (line : List Char) {fields : List Field}
    (printable : ∀ field ∈ fields, field.IsPrintable) :
    ofTokens line ((fields.flatMap words).map String.toList) = fields.map .ok := by
  induction fields with
  | nil => rw [List.flatMap_nil, List.map_nil, ofTokens, List.map_nil]
  | cons field fields ih =>
    obtain ⟨here, others⟩ := List.forall_mem_cons.mp printable
    have attributes : ∀ a ∈ field.attributes.map String.toList, isAttribute a := by
      simpa using here.attributes
    -- The attributes end where the next field begins.
    have stop : ((fields.flatMap words).map String.toList).takeWhile isAttribute = [] ∧
        ((fields.flatMap words).map String.toList).dropWhile isAttribute =
          (fields.flatMap words).map String.toList := by
      cases fields with
      | nil => exact ⟨rfl, rfl⟩
      | cons next fields =>
        have name := (others next List.mem_cons_self).name
        exact ⟨List.takeWhile_cons_of_neg (by simp [name]),
          List.dropWhile_cons_of_neg (by simp [name])⟩
    rw [List.flatMap_cons, List.map_append, words, List.map_cons, List.map_cons, List.cons_append,
      List.cons_append, ofTokens, here.name, here.type, List.takeWhile_append_of_pos attributes,
      List.dropWhile_append_of_pos attributes, stop.1, stop.2, ih others]
    simp

/-- A line without tokens declares nothing. -/
lemma IsEnding.isSkipped_trim {s : List Char} (h : IsEnding s) : isSkipped (trim s) := by
  cases h with
  | space space =>
    rw [← List.append_nil s, trim_append_left space.isBlank]
    exact IsFiller.blank.isSkipped_trim
  | comment ne space =>
    rw [trim_append_left space.isBlank]
    exact (IsFiller.comment _).isSkipped_trim

/-- Tokens that spell fields are closed. -/
lemma closed_words {fields : List Field} {words : List Word}
    (printable : ∀ field ∈ fields, field.IsPrintable)
    (spelled : words.map (·.token) = fields.flatMap Field.words) :
    ∀ word ∈ words, IsClosed word.token.toList := by
  intro word mem
  have here := List.mem_map_of_mem (f := Word.token) mem
  rw [spelled] at here
  obtain ⟨field, mem, here⟩ := List.mem_flatMap.mp here
  exact (printable field mem).closed _ here

/-- A line declares its fields, and what ends it does not matter. -/
lemma ofLine_text (line : Line) : ofLine line.text = line.fields.map .ok := by
  cases line with
  | filler before content after indent is oneLine trailing =>
    rw [Line.text, ofLine, trim_append_right trailing.isBlank, trim_append_left indent.isBlank]
    simp only [is.isSkipped_trim, if_true]
    rfl
  | declares fields words ending printable spelled spaced apart ends =>
    have closed := closed_words printable spelled
    rw [Line.text, Line.fields, ofLine]
    cases fields with
    | nil =>
      rw [List.map_eq_nil_iff.mp spelled, List.flatMap_nil, List.nil_append, ends.isSkipped_trim]
      rfl
    | cons field fields =>
      have two : 2 ≤ words.length := by
        have count := congrArg List.length spelled
        simp only [List.length_map, List.flatMap_cons, List.length_append, Field.words,
          List.length_cons] at count
        omega
      match words, two with
      | word :: next :: words, _ =>
      obtain ⟨indent, spaced⟩ := List.forall_mem_cons.mp spaced
      have name : word.token = field.name := (List.cons.inj spelled).1
      have tokens := @tokens_words (⟨[], word.token⟩ :: next :: words) (dropEnd isBlank ending)
        (by simpa using closed) (List.forall_mem_cons.mpr ⟨nofun, spaced⟩) apart
        ends.dropEnd.breaks
      rw [ends.dropEnd.tokens_eq, List.append_nil] at tokens
      have declares : isSkipped ((⟨[], word.token⟩ :: next :: words).flatMap Word.text ++
          dropEnd isBlank ending) = false := by
        rw [List.flatMap_cons, List.append_assoc]
        refine (closed word List.mem_cons_self).isSkipped_append ?_ ?_
          (breaks_words spaced apart ends.dropEnd.breaks)
        · rw [name]
          exact (printable field List.mem_cons_self).name
        · have gap := apart next List.mem_cons_self
          simp [Word.text, gap]
      have spelled := congrArg (List.map String.toList) spelled
      rw [List.map_map] at spelled
      rw [trim_words closed indent, tokens]
      simp only [declares]
      rw [← ofTokens_words _ printable, ← spelled]
      rfl

/-- A line is one line. -/
lemma Line.oneLine (line : Line) : '\n' ∉ line.text := by
  cases line with
  | filler before content after indent is oneLine trailing =>
    rw [text, List.mem_append, List.mem_append, not_or, not_or]
    exact ⟨⟨indent.oneLine, oneLine⟩, trailing.oneLine⟩
  | declares fields words ending printable spelled spaced apart ends =>
    rw [text, List.mem_append, not_or]
    exact ⟨oneLine_words (closed_words printable spelled) spaced, ends.oneLine⟩

/-! ### Bodies -/

/-- White space around a line is not read. -/
lemma ofLine_trim (line : List Char) : ofLine (trim line) = ofLine line := by
  rw [ofLine, trim_trim, ← ofLine]

/-- A text is read from the contents of its lines. -/
lemma flatMap_ofLine_contents (s : List Char) :
    (contents s).flatMap ofLine = (lines s).flatMap ofLine := by
  rw [contents]
  induction lines s with
  | nil => rfl
  | cons line more ih =>
    rw [List.map_cons, List.filter_cons, List.flatMap_cons, ← ofLine_trim line, ← ih]
    by_cases blank : trim line = []
    · rw [blank]
      rfl
    · simp [blank]

/-- Lines are read one by one. -/
lemma flatMap_ofLine_lines {ls : List (List Char)} (oneLine : ∀ l ∈ ls, '\n' ∉ l) :
    (lines (['\n'].intercalate ls)).flatMap ofLine = ls.flatMap ofLine := by
  rw [← flatMap_ofLine_contents, contents_intercalate, List.flatMap_assoc]
  refine List.flatMap_congr fun l mem => ?_
  rw [flatMap_ofLine_contents, lines_eq (oneLine l mem)]
  split_ifs with empty
  · rw [empty]
    rfl
  · exact List.flatMap_singleton _ _

/-- White space around a body has no influence on what is read. -/
lemma entries_trim (body : String) :
    entries (String.ofList (trim body.toList)) = entries body := by
  rw [entries, entries, String.toList_ofList, ← flatMap_ofLine_contents, contents_trim,
    flatMap_ofLine_contents]

/-- Fields that are written down are read back, in their order and without a complaint, however they
are laid out. -/
theorem entries_print (layout : List Line) :
    entries (print layout) = (layout.flatMap Line.fields).map .ok := by
  have oneLine : ∀ l ∈ layout.map Line.text, '\n' ∉ l :=
    List.forall_mem_map.mpr fun line _ => line.oneLine
  rw [entries, print, String.toList_ofList, flatMap_ofLine_lines oneLine, List.flatMap_map]
  simp only [ofLine_text]
  exact List.map_flatMap.symm

example : ofBody "\t author User @relation(fields: [a, b]) // who\r\n\x7b\nid Int a \"[ \" @@x @id" =
    [⟨"author", "User", ["@relation(fields: [a, b])"]⟩, ⟨"id", "Int", []⟩,
      ⟨"a", "\"[ \"", ["@@x", "@id"]⟩] := by
  decide +kernel

end EntityForge.Field

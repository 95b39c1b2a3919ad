import EntityForge.Text.Blank
import EntityForge.Text.Line
import Mathlib

/-!
# Trimmed texts and counted lines

What trimming takes off, what the lines of a text hold up to the white space around them, and how
often one of them occurs. Contents and counts are put together from the parts of a text that is
divided at a line feed.
-/

namespace EntityForge.Text

/-! ### Trimming -/

/-- What is dropped at the end of a text passes the test, and the last character that stays does
not. -/
lemma exists_dropEnd (p : Char → Bool) (s : List Char) :
    ∃ dropped, s = dropEnd p s ++ dropped ∧ (∀ c ∈ dropped, p c) ∧
      ∀ c, (dropEnd p s).getLast? = some c → p c = false := by
  refine ⟨s.rtakeWhile p, List.rdropWhile_append_rtakeWhile.symm,
    fun c mem => List.mem_rtakeWhile_imp mem, ?_⟩
  intro c last
  have ne : s.rdropWhile p ≠ [] := by
    intro empty
    rw [show dropEnd p s = [] from empty] at last
    cases last
  have kept := List.rdropWhile_last_not p s ne
  rw [(List.getLast_eq_iff_getLast?_eq_some ne).mpr last] at kept
  exact Bool.not_eq_true _ ▸ kept

/-- What passes the test at the end of a text is dropped. -/
lemma dropEnd_append {p : Char → Bool} {s dropped : List Char} (h : ∀ c ∈ dropped, p c) :
    dropEnd p (s ++ dropped) = dropEnd p s := by
  induction dropped using List.reverseRecOn with
  | nil => rw [List.append_nil]
  | append_singleton dropped c ih =>
    rw [← List.append_assoc]
    refine (List.rdropWhile_concat_pos p _ c (h c (by simp))).trans (ih ?_)
    exact fun d mem => h d (List.mem_append_left _ mem)

/-- Nothing is dropped up to the last character that does not pass the test. -/
lemma dropEnd_append_of_not {p : Char → Bool} {s : List Char}
    (last : ∀ c, s.getLast? = some c → p c = false) (rest : List Char) :
    dropEnd p (s ++ rest) = s ++ dropEnd p rest := by
  induction rest using List.reverseRecOn with
  | nil =>
    have kept : s.rdropWhile p = s := by
      refine List.rdropWhile_eq_self_iff.mpr fun ne => ?_
      rw [last _ (List.getLast?_eq_some_getLast ne)]
      exact Bool.false_ne_true
    rw [List.append_nil]
    exact kept.trans (List.append_nil s).symm
  | append_singleton rest c ih =>
    rw [← List.append_assoc]
    by_cases drops : p c
    · refine (List.rdropWhile_concat_pos p _ c drops).trans (ih.trans ?_)
      exact congrArg (s ++ ·) (List.rdropWhile_concat_pos p rest c drops).symm
    · refine (List.rdropWhile_concat_neg p _ c drops).trans ?_
      rw [List.append_assoc]
      exact congrArg (s ++ ·) (List.rdropWhile_concat_neg p rest c drops).symm

/-- White space at the beginning is trimmed. -/
lemma trim_append_left {blanks s : List Char} (h : ∀ c ∈ blanks, isBlank c) :
    trim (blanks ++ s) = trim s := by
  rw [trim, trim, dropStart, List.dropWhile_append_of_pos h]
  rfl

/-- White space at the end is trimmed. -/
lemma trim_append_right {blanks s : List Char} (h : ∀ c ∈ blanks, isBlank c) :
    trim (s ++ blanks) = trim s := by
  rw [trim, trim, dropStart, dropStart, List.dropWhile_append]
  split_ifs with all
  · rw [List.dropWhile_eq_nil_iff.mpr h, List.isEmpty_iff.mp all]
  · exact dropEnd_append h

/-- Trimming a text takes white space off its ends. -/
lemma exists_trim (s : List Char) :
    ∃ front back, s = front ++ (trim s ++ back) ∧ (∀ c ∈ front, isBlank c) ∧
      ∀ c ∈ back, isBlank c := by
  obtain ⟨back, split, blank, -⟩ := exists_dropEnd isBlank (dropStart isBlank s)
  refine ⟨s.takeWhile isBlank, back, ?_, fun c mem => List.mem_takeWhile_imp mem, blank⟩
  rw [trim, ← split]
  exact List.takeWhile_append_dropWhile.symm

/-- Trimming twice is trimming once. -/
lemma trim_trim (s : List Char) : trim (trim s) = trim s := by
  obtain ⟨front, back, split, blank, blank'⟩ := exists_trim s
  conv_rhs => rw [split, trim_append_left blank, trim_append_right blank']

/-- The characters of a trimmed text are characters of the text. -/
lemma mem_of_mem_trim {s : List Char} {c : Char} (mem : c ∈ trim s) : c ∈ s := by
  obtain ⟨front, back, split, -⟩ := exists_trim s
  rw [split]
  exact List.mem_append_right _ (List.mem_append_left _ mem)

/-- A trimmed text does not end with white space. -/
lemma isBlank_of_getLast?_trim {s : List Char} {c : Char} (last : (trim s).getLast? = some c) :
    isBlank c = false := by
  obtain ⟨dropped, -, -, solid⟩ := exists_dropEnd isBlank (dropStart isBlank s)
  exact solid c last

/-- Of a text that does not begin with white space only the end is trimmed. -/
lemma trim_append_of_solid {s : List Char} (ne : s ≠ [])
    (first : ∀ c, s.head? = some c → isBlank c = false)
    (last : ∀ c, s.getLast? = some c → isBlank c = false) (rest : List Char) :
    trim (s ++ rest) = s ++ dropEnd isBlank rest := by
  obtain ⟨c, t, rfl⟩ := List.exists_cons_of_ne_nil ne
  rw [trim, dropStart, List.cons_append, List.dropWhile_cons_of_neg (by simp [first c rfl]),
    ← List.cons_append, dropEnd_append_of_not last]

/-- A text that neither begins nor ends with white space is not changed by trimming. -/
lemma trim_eq_self {s : List Char} (first : ∀ c, s.head? = some c → isBlank c = false)
    (last : ∀ c, s.getLast? = some c → isBlank c = false) : trim s = s := by
  by_cases empty : s = []
  · rw [empty]
    rfl
  · have kept := trim_append_of_solid empty first last []
    rwa [List.append_nil, show dropEnd isBlank [] = [] from rfl, List.append_nil] at kept

/-- Trimming keeps what is not white space. -/
lemma mem_trim {s : List Char} {c : Char} (mem : c ∈ s) (solid : isBlank c = false) :
    c ∈ trim s := by
  obtain ⟨front, back, split, blank, blank'⟩ := exists_trim s
  rw [split, List.mem_append, List.mem_append] at mem
  obtain mem | mem | mem := mem
  · rw [blank c mem] at solid
    cases solid
  · exact mem
  · rw [blank' c mem] at solid
    cases solid

/-- A text that does not end with white space ends, once trimmed, as it did. -/
lemma getLast?_trim {s : List Char} {c : Char} (last : s.getLast? = some c)
    (solid : isBlank c = false) : (trim s).getLast? = some c := by
  obtain ⟨front, back, split, blank, blank'⟩ := exists_trim s
  have mem := mem_trim (List.mem_of_getLast? last) solid
  by_cases empty : back = []
  · rw [split, empty, List.append_nil,
      List.getLast?_append_of_ne_nil _ (List.ne_nil_of_mem mem)] at last
    exact last
  · rw [split, ← List.append_assoc, List.getLast?_append_of_ne_nil _ empty] at last
    rw [blank' c (List.mem_of_getLast? last)] at solid
    cases solid

/-- A text that does not begin with white space begins, once trimmed, as it did. -/
lemma head?_trim {s : List Char} {c : Char} (first : s.head? = some c)
    (solid : isBlank c = false) : (trim s).head? = some c := by
  obtain ⟨front, back, split, blank, blank'⟩ := exists_trim s
  have mem := mem_trim (List.mem_of_head? first) solid
  cases front with
  | nil =>
    rw [split, List.nil_append, List.head?_append_of_ne_nil _ (List.ne_nil_of_mem mem)] at first
    exact first
  | cons d front =>
    rw [split] at first
    rw [blank c (Option.some.inj first ▸ List.mem_cons_self)] at solid
    cases solid

/-! ### Parts of a text -/

/-- What stands before a mark, or the whole text if there is none, is what comes before the first such
character. -/
lemma getD_before? (mark : Char) (s : List Char) :
    (before? mark s).getD s = s.takeWhile (· != mark) := by
  induction s with
  | nil => rfl
  | cons c s ih =>
    rw [before?]
    split_ifs with here
    · simp [here]
    · have other : (c != mark) = true := bne_iff_ne.mpr here
      rw [List.takeWhile_cons, if_pos other, ← ih]
      cases before? mark s <;> rfl

/-- A part is looked for at every place of a text. -/
lemma contains_iff {part s : List Char} : contains part s ↔ part <:+: s := by
  induction s with
  | nil => rw [contains, List.isEmpty_iff, List.infix_nil]
  | cons c s ih => rw [contains, Bool.or_eq_true, List.isPrefixOf_iff_prefix, ih, List.infix_cons_iff]

/-- A text is what is left without the copies of a part at its end, and these copies; no further copy
ends what is left. -/
lemma exists_dropTrailing {part : List Char} (ne : part ≠ []) (s : List Char) :
    (∃ copies, s = dropTrailing part s ++ (List.replicate copies part).flatten) ∧
      ¬ part <:+ dropTrailing part s := by
  fun_induction dropTrailing part s with
  | case1 s copy ih =>
    obtain ⟨⟨copies, split⟩, last⟩ := ih
    obtain ⟨front, rfl⟩ := List.isSuffixOf_iff_suffix.mp copy.2.1
    rw [List.length_append, Nat.add_sub_cancel, List.take_left] at split last ⊢
    refine ⟨⟨copies + 1, ?_⟩, last⟩
    rw [List.replicate_succ', List.flatten_concat, ← List.append_assoc, ← split]
  | case2 s other =>
    refine ⟨⟨0, (List.append_nil s).symm⟩, fun copy => other ⟨ne, ?_, ?_⟩⟩
    · exact List.isSuffixOf_iff_suffix.mpr copy
    · rintro rfl
      exact ne (List.suffix_nil.mp copy)

/-! ### Lines -/

/-- Lines that are ended are the same text as lines with line feeds between them and an empty one
behind. -/
lemma intercalate_concat_nil (ls : List (List Char)) :
    ['\n'].intercalate (ls ++ [[]]) = ls.flatMap (· ++ ['\n']) := by
  induction ls with
  | nil => rfl
  | cons l ls ih =>
    rw [List.cons_append, List.intercalate_cons_of_ne_nil (by simp), ih, List.flatMap_cons]

/-- The first line of a text lacks at most the carriage return that ends it. -/
lemma exists_lines_eq {first : List Char} (whole : '\n' ∉ first) (rest : List Char) :
    ∃ l, lines (first ++ '\n' :: rest) = l :: lines rest ∧ (first = l ∨ first = l ++ ['\r']) := by
  induction first with
  | nil => exact ⟨[], by rw [List.nil_append, lines], .inl rfl⟩
  | cons c first ih =>
    obtain ⟨l, e, same⟩ := ih fun mem => whole (List.mem_cons_of_mem c mem)
    by_cases ends : c = '\r' ∧ first = []
    · obtain ⟨rfl, rfl⟩ := ends
      exact ⟨[], by rw [List.cons_append, List.nil_append, lines], .inr rfl⟩
    · refine ⟨c :: l, ?_, ?_⟩
      · rw [List.cons_append, lines, e]
        · rintro rfl
          exact whole List.mem_cons_self
        · rintro more rfl split
          cases first with
          | nil => exact ends ⟨rfl, rfl⟩
          | cons d first =>
            cases split
            exact whole (by simp)
      · obtain rfl | rfl := same
        · exact .inl rfl
        · exact .inr rfl

/-- A text without line feeds has one line, or none if it is empty. -/
lemma lines_eq {s : List Char} (whole : '\n' ∉ s) :
    lines s = if s = [] then [] else [s] := by
  induction s with
  | nil => rfl
  | cons c s ih =>
    rw [lines, ih fun mem => whole (List.mem_cons_of_mem c mem)]
    · cases s <;> rfl
    · rintro rfl
      exact whole List.mem_cons_self
    · rintro more rfl rfl
      exact whole (by simp)

/-- A text that can be a line: it has no line feed, and what ends it does not belong to the end of the
line. -/
def IsWhole (s : List Char) : Prop :=
  '\n' ∉ s ∧ s.getLast? ≠ some '\r'

/-- Whether a text is one line can be checked by looking for its ends. -/
instance (s : List Char) : Decidable (IsWhole s) :=
  inferInstanceAs (Decidable ('\n' ∉ s ∧ s.getLast? ≠ some '\r'))

/-- Whether a text can be a line depends on its end and on line feeds before it. -/
lemma IsWhole.append {s t : List Char} (oneLine : '\n' ∉ s) (ne : t ≠ []) (whole : IsWhole t) :
    IsWhole (s ++ t) := by
  rw [IsWhole, List.mem_append, not_or, List.getLast?_append_of_ne_nil s ne]
  exact ⟨⟨oneLine, whole.1⟩, whole.2⟩

/-- Lines that are ended are the lines of the text that they make up. -/
lemma lines_flatMap {ls : List (List Char)} (whole : ∀ l ∈ ls, IsWhole l) :
    lines (ls.flatMap (· ++ ['\n'])) = ls := by
  induction ls with
  | nil => rfl
  | cons first ls ih =>
    obtain ⟨⟨oneLine, last⟩, whole⟩ := List.forall_mem_cons.mp whole
    obtain ⟨l, split, same⟩ := exists_lines_eq oneLine (ls.flatMap (· ++ ['\n']))
    obtain rfl : first = l := by
      refine same.resolve_right fun ends => last ?_
      rw [ends, List.getLast?_concat]
    rw [List.flatMap_cons, List.append_assoc, List.singleton_append, split, ih whole]

/-- Lines with line feeds between them are the lines of the text that they make up, if the last one is
not empty. -/
lemma lines_intercalate {ls : List (List Char)} (whole : ∀ l ∈ ls, IsWhole l)
    (last : ls.getLast? ≠ some []) : lines (['\n'].intercalate ls) = ls := by
  induction ls with
  | nil => rfl
  | cons first ls ih =>
    obtain ⟨⟨oneLine, ends⟩, whole⟩ := List.forall_mem_cons.mp whole
    by_cases alone : ls = []
    · subst alone
      rw [List.intercalate_singleton, lines_eq oneLine, if_neg fun empty => last (by simp [empty])]
    · obtain ⟨l, split, same⟩ := exists_lines_eq oneLine (['\n'].intercalate ls)
      obtain rfl : first = l := by
        refine same.resolve_right fun carriage => ends ?_
        rw [carriage, List.getLast?_concat]
      rw [List.getLast?_cons_of_ne_nil alone] at last
      rw [List.intercalate_cons_of_ne_nil alone, List.append_assoc, List.singleton_append, split,
        ih whole last]

/-- No line has a line feed. -/
lemma not_mem_of_mem_lines {s l : List Char} (mem : l ∈ lines s) : '\n' ∉ l := by
  fun_induction lines s generalizing l with
  | case1 => cases mem
  | case2 rest ih =>
    cases mem with
    | head => exact List.not_mem_nil
    | tail _ mem => exact ih mem
  | case3 rest ih =>
    cases mem with
    | head => exact List.not_mem_nil
    | tail _ mem => exact ih mem
  | case4 c rest other _ empty ih =>
    rw [List.mem_singleton.mp mem, List.mem_singleton]
    exact fun feed => other feed.symm
  | case5 c rest other _ line more eq ih =>
    rw [eq] at ih
    cases mem with
    | head =>
      rw [List.mem_cons, not_or]
      exact ⟨fun feed => other feed.symm, ih List.mem_cons_self⟩
    | tail _ mem => exact ih (List.mem_cons_of_mem _ mem)

/-! ### Contents of lines -/

/-- What stands on the lines of a text, freed of white space at its ends. Lines with nothing else on
them are left out. -/
def contents (s : List Char) : List (List Char) :=
  ((lines s).map trim).filter (· ≠ [])

/-- One line has at most one content. -/
lemma contents_eq {s : List Char} (whole : '\n' ∉ s) :
    contents s = if trim s = [] then [] else [trim s] := by
  rw [contents, lines_eq whole]
  split_ifs with empty blank blank
  · rfl
  · rw [empty] at blank
    exact absurd rfl blank
  · simp [blank]
  · simp [blank]

/-- The contents of a text with its first line apart. -/
private lemma contents_first {first : List Char} (whole : '\n' ∉ first) (rest : List Char) :
    contents (first ++ '\n' :: rest) = contents first ++ contents rest := by
  obtain ⟨l, e, same⟩ := exists_lines_eq whole rest
  have trimmed : trim l = trim first := by
    obtain rfl | rfl := same
    · rfl
    · refine (trim_append_right fun c mem => ?_).symm
      rw [List.mem_singleton.mp mem]
      decide
  rw [contents_eq whole, contents, contents, e, List.map_cons, trimmed, List.filter_cons]
  by_cases blank : trim first = []
  · simp [blank]
  · simp [blank]

/-- A line feed divides the contents of a text. -/
lemma contents_append (s t : List Char) :
    contents (s ++ '\n' :: t) = contents s ++ contents t := by
  by_cases whole : '\n' ∈ s
  · obtain ⟨first, rest, split, none⟩ := List.eq_append_cons_of_mem whole
    have shorter : rest.length < s.length := by
      rw [split, List.length_append, List.length_cons]
      omega
    rw [split, List.append_assoc, List.cons_append, contents_first none, contents_append rest t,
      contents_first none, List.append_assoc]
  · exact contents_first whole t
termination_by s.length

/-- An empty text has no contents. -/
lemma contents_nil : contents [] = [] := rfl

/-- Line feeds divide the contents of a text. -/
lemma contents_intercalate (ls : List (List Char)) :
    contents (['\n'].intercalate ls) = ls.flatMap contents := by
  induction ls with
  | nil => rfl
  | cons first ls ih =>
    cases ls with
    | nil => rw [List.intercalate_singleton, List.flatMap_singleton]
    | cons next ls =>
      rw [List.intercalate_cons_cons, List.append_assoc, List.singleton_append, contents_append, ih,
        ← List.flatMap_cons]

/-- A text that stops where a line does. -/
def EndsLine (s : List Char) : Prop :=
  s = [] ∨ ∃ init, s = init ++ ['\n']

/-- A text that is empty or begins with the end of a line. -/
def BeginsWithEnd (s : List Char) : Prop :=
  s = [] ∨ ∃ rest, s = '\n' :: rest

/-- The end of a line divides the contents of what stands before and behind it. -/
lemma contents_append_of_endsLine {s : List Char} (h : EndsLine s) (t : List Char) :
    contents (s ++ t) = contents s ++ contents t := by
  obtain rfl | ⟨init, rfl⟩ := h
  · rfl
  · rw [← List.append_cons, contents_append, contents_append, contents_nil, List.append_nil]

/-- So it does if it belongs to the second part. -/
lemma contents_append_of_beginsWithEnd (s : List Char) {t : List Char} (h : BeginsWithEnd t) :
    contents (s ++ t) = contents s ++ contents t := by
  obtain rfl | ⟨rest, rfl⟩ := h
  · rw [List.append_nil, contents_nil, List.append_nil]
  · have empty := contents_append [] rest
    rw [List.nil_append, contents_nil, List.nil_append] at empty
    rw [contents_append, empty]

/-- The part of a text after its last line feed. -/
def lastLine (s : List Char) : List Char :=
  s.rtakeWhile (· ≠ '\n')

/-- The part of a text before its first line feed. -/
def firstLine (s : List Char) : List Char :=
  s.takeWhile (· ≠ '\n')

/-- A text as whole lines and its last line. -/
lemma exists_lastLine (s : List Char) :
    ∃ init, s = init ++ lastLine s ∧ EndsLine init ∧ '\n' ∉ lastLine s := by
  refine ⟨s.rdropWhile (· ≠ '\n'), List.rdropWhile_append_rtakeWhile.symm, ?_, ?_⟩
  · cases dropped : s.rdropWhile (· ≠ '\n') using List.reverseRecOn with
    | nil => exact .inl rfl
    | append_singleton init c =>
      have ne : s.rdropWhile (· ≠ '\n') ≠ [] := by
        rw [dropped]
        exact List.concat_ne_nil c init
      have last := List.rdropWhile_last_not (· ≠ '\n') s ne
      simp only [dropped, List.getLast_concat] at last
      exact .inr ⟨init, by simpa using last⟩
  · intro mem
    simpa using List.mem_rtakeWhile_imp mem

/-- A text as its first line and what follows the line. -/
lemma exists_firstLine (s : List Char) :
    ∃ rest, s = firstLine s ++ rest ∧ BeginsWithEnd rest ∧ '\n' ∉ firstLine s := by
  refine ⟨s.dropWhile (· ≠ '\n'), List.takeWhile_append_dropWhile.symm, ?_, ?_⟩
  · cases dropped : s.dropWhile (· ≠ '\n') with
    | nil => exact .inl rfl
    | cons c rest =>
      have ne : s.dropWhile (· ≠ '\n') ≠ [] := by
        rw [dropped]
        exact List.cons_ne_nil c rest
      have first := List.head_dropWhile_not (· ≠ '\n') ne
      simp only [dropped, List.head_cons] at first
      exact .inr ⟨rest, by simpa using first⟩
  · intro mem
    simpa using List.mem_takeWhile_imp mem

/-- The first line goes on over a part without line feeds. -/
lemma firstLine_append {s : List Char} (whole : '\n' ∉ s) (t : List Char) :
    firstLine (s ++ t) = s ++ firstLine t :=
  List.takeWhile_append_of_pos fun _ mem => decide_eq_true fun e => whole (e ▸ mem)

/-- A line feed ends the first line. -/
lemma firstLine_newline (t : List Char) : firstLine ('\n' :: t) = [] := rfl

/-- The last line goes on over a part without line feeds. -/
lemma lastLine_append {t : List Char} (whole : '\n' ∉ t) (s : List Char) :
    lastLine (s ++ t) = lastLine s ++ t := by
  rw [lastLine, lastLine, List.rtakeWhile, List.rtakeWhile, List.reverse_append,
    List.takeWhile_append_of_pos, List.reverse_append, List.reverse_reverse]
  exact fun _ mem => decide_eq_true fun e => whole (e ▸ List.mem_reverse.mp mem)

/-- The last line of a text ends as the text does. -/
lemma getLast?_lastLine {s : List Char} {c : Char} (last : s.getLast? = some c) (ne : c ≠ '\n') :
    (lastLine s).getLast? = some c := by
  obtain ⟨init, rfl⟩ := List.getLast?_eq_some_iff.mp last
  rw [lastLine_append (by simpa using ne.symm), List.getLast?_concat]

/-- White space before a text has no contents. -/
lemma contents_append_left {blanks : List Char} (blank : ∀ c ∈ blanks, isBlank c) (s : List Char) :
    contents (blanks ++ s) = contents s := by
  induction blanks with
  | nil => rfl
  | cons c blanks ih =>
    rw [← ih fun d mem => blank d (List.mem_cons_of_mem c mem), List.cons_append]
    by_cases feed : c = '\n'
    · subst feed
      exact contents_append [] (blanks ++ s)
    · -- The character is on the first line, which is as blank with it as without it.
      obtain ⟨rest, split, begins, whole⟩ := exists_firstLine (blanks ++ s)
      have whole' : '\n' ∉ c :: firstLine (blanks ++ s) :=
        List.not_mem_cons_of_ne_of_not_mem (Ne.symm feed) whole
      rw [split, ← List.cons_append, contents_append_of_beginsWithEnd _ begins,
        contents_append_of_beginsWithEnd _ begins, contents_eq whole', contents_eq whole,
        ← List.singleton_append, trim_append_left (by simpa using blank c List.mem_cons_self)]

/-- White space behind a text has no contents. -/
lemma contents_append_right {blanks : List Char} (blank : ∀ c ∈ blanks, isBlank c) (s : List Char) :
    contents (s ++ blanks) = contents s := by
  induction blanks using List.reverseRecOn with
  | nil => rw [List.append_nil]
  | append_singleton blanks c ih =>
    rw [← ih fun d mem => blank d (List.mem_append_left _ mem), ← List.append_assoc]
    by_cases feed : c = '\n'
    · subst feed
      exact (contents_append (s ++ blanks) []).trans (List.append_nil _)
    · obtain ⟨init, split, ends, whole⟩ := exists_lastLine (s ++ blanks)
      have whole' : '\n' ∉ lastLine (s ++ blanks) ++ [c] := by simp [whole, Ne.symm feed]
      rw [split, List.append_assoc, contents_append_of_endsLine ends,
        contents_append_of_endsLine ends, contents_eq whole', contents_eq whole,
        trim_append_right (by simpa using blank c (by simp))]

/-- Trimming takes no contents away. -/
lemma contents_trim (s : List Char) : contents (trim s) = contents s := by
  obtain ⟨front, back, split, blank, blank'⟩ := exists_trim s
  conv_rhs => rw [split, contents_append_left blank, contents_append_right blank']

/-! ### Counted lines -/

/-- How many lines of a text are a given one, freed of white space at their ends. -/
def lineCount (line s : List Char) : Nat :=
  (lines s).countP fun l => trim l == line

section

variable {line : List Char}

/-- A line with something on it is counted among the contents. -/
lemma lineCount_eq_count (ne : line ≠ []) (s : List Char) :
    lineCount line s = (contents s).count line := by
  rw [contents, List.count_filter (by simpa using ne), List.count_eq_countP, List.countP_map]
  rfl

/-- Whether one line is a given one. -/
lemma lineCount_eq (ne : line ≠ []) {s : List Char} (whole : '\n' ∉ s) :
    lineCount line s = if trim s = line then 1 else 0 := by
  rw [lineCount_eq_count ne, contents_eq whole]
  split_ifs with blank eq eq
  · exact absurd (eq.symm.trans blank) ne
  · rfl
  · simp [eq]
  · simp [eq]

/-- A line with a character that the given one lacks is not it. -/
lemma lineCount_eq_zero (ne : line ≠ []) {s : List Char} (whole : '\n' ∉ s) {c : Char}
    (mem : c ∈ s) (solid : isBlank c = false) (none : c ∉ line) : lineCount line s = 0 := by
  rw [lineCount_eq ne whole, if_neg]
  rintro rfl
  exact none (mem_trim mem solid)

/-- Counts of lines add up at a line feed. -/
lemma lineCount_append (ne : line ≠ []) (s t : List Char) :
    lineCount line (s ++ '\n' :: t) = lineCount line s + lineCount line t := by
  simp only [lineCount_eq_count ne, contents_append, List.count_append]

/-- Counts of lines add up after the end of a line. -/
lemma lineCount_append_of_endsLine (ne : line ≠ []) {s : List Char} (h : EndsLine s)
    (t : List Char) : lineCount line (s ++ t) = lineCount line s + lineCount line t := by
  simp only [lineCount_eq_count ne, contents_append_of_endsLine h, List.count_append]

/-- Counts of lines add up before the end of a line. -/
lemma lineCount_append_of_beginsWithEnd (ne : line ≠ []) (s : List Char) {t : List Char}
    (h : BeginsWithEnd t) : lineCount line (s ++ t) = lineCount line s + lineCount line t := by
  simp only [lineCount_eq_count ne, contents_append_of_beginsWithEnd s h, List.count_append]

/-- What stands between two parts of a text has an influence on the count only in the lines that it
shares with them. -/
lemma exists_lineCount (ne : line ≠ []) (s t : List Char) :
    ∃ others, ∀ middle, lineCount line (s ++ (middle ++ t)) =
      others + lineCount line (lastLine s ++ (middle ++ firstLine t)) := by
  obtain ⟨init, hs, ends, -⟩ := exists_lastLine s
  obtain ⟨rest, ht, begins, -⟩ := exists_firstLine t
  refine ⟨lineCount line init + lineCount line rest, fun middle => ?_⟩
  have split : s ++ (middle ++ t) =
      init ++ ((lastLine s ++ (middle ++ firstLine t)) ++ rest) := by
    conv_lhs => rw [hs, ht]
    simp
  rw [split, lineCount_append_of_endsLine ne ends, lineCount_append_of_beginsWithEnd ne _ begins]
  omega

/-- A text of nothing but white space has no line with anything on it. -/
lemma lineCount_blank (ne : line ≠ []) {s : List Char} (blank : ∀ c ∈ s, isBlank c) :
    lineCount line s = 0 := by
  have none := contents_append_left blank []
  rw [List.append_nil] at none
  rw [lineCount_eq_count ne, none, contents_nil, List.count_nil]

/-- Of white space with a line feed no more than what follows the last one has an influence on the
count. -/
lemma exists_lineCount_blank (ne : line ≠ []) {front blanks : List Char} (whole : '\n' ∉ front)
    (blank : ∀ c ∈ blanks, isBlank c) (newline : '\n' ∈ blanks) (back : List Char) :
    ∃ indent, (∀ c ∈ indent, isBlank c) ∧ '\n' ∉ indent ∧
      lineCount line (front ++ (blanks ++ back)) =
        lineCount line front + lineCount line (indent ++ back) := by
  obtain ⟨first, rest, rfl, none⟩ := List.eq_append_cons_of_mem newline
  obtain ⟨init, split, ends, none'⟩ := exists_lastLine rest
  have blankFirst : ∀ c ∈ first, isBlank c := fun c mem => blank c (by simp [mem])
  have blankRest : ∀ c ∈ rest, isBlank c := fun c mem => blank c (by simp [mem])
  have blankInit : ∀ c ∈ init, isBlank c :=
    fun c mem => blankRest c (split ▸ List.mem_append_left _ mem)
  refine ⟨lastLine rest,
    fun c mem => blankRest c (split ▸ List.mem_append_right _ mem), none', ?_⟩
  have text : front ++ (first ++ '\n' :: rest ++ back) =
      (front ++ first) ++ '\n' :: (init ++ (lastLine rest ++ back)) := by
    conv_lhs => rw [split]
    simp
  have sameFront : lineCount line (front ++ first) = lineCount line front := by
    rw [lineCount_eq ne whole, lineCount_eq ne (by simp [whole, none]),
      trim_append_right blankFirst]
  rw [text, lineCount_append ne, sameFront, lineCount_append_of_endsLine ne ends,
    lineCount_blank ne blankInit, Nat.zero_add]

end

end EntityForge.Text

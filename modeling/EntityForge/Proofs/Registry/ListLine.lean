import EntityForge.Proofs.Registry.ImportText
import EntityForge.Proofs.Registry.InsertedLine
import EntityForge.Proofs.Registry.Layout
import EntityForge.Proofs.Registry.Insertion
import Mathlib

/-!
# The lines of a list

If no line that the imports list stands on is an import line, then an insertion into the list does
not make one: of the lines that it makes, one ends with the last entry and a comma, one begins with
the module, and the others begin or end with a bracket or the end of a comment.
-/

namespace EntityForge.Registry

open Text

variable {root : String} {name : EntityName}

/-- A line that ends with something else than a semicolon is no import line. -/
private lemma lineCount_of_getLast? {s : List Char} {c : Char} (whole : '\n' ∉ s)
    (last : s.getLast? = some c) (solid : isBlank c = false) (ne : c ≠ ';') :
    lineCount (importLine root name).toList s = 0 := by
  rw [lineCount_eq (importLine_ne_nil root name) whole, if_neg]
  intro eq
  have ends := getLast?_trim last solid
  rw [eq, getLast?_importLine] at ends
  exact ne (Option.some.inj ends).symm

/-- A line that begins with something else than an `i` is no import line. -/
private lemma lineCount_of_head? {s : List Char} {c : Char} (whole : '\n' ∉ s)
    (first : (trim s).head? = some c) (ne : c ≠ 'i') :
    lineCount (importLine root name).toList s = 0 := by
  rw [lineCount_eq (importLine_ne_nil root name) whole, if_neg]
  intro eq
  rw [eq, head?_importLine] at first
  exact ne (Option.some.inj first).symm

/-- A line that begins with a module is no import line. -/
private lemma lineCount_module {other : EntityName} {indent rest : List Char}
    (title : IsIdentifier other.title) (blank : ∀ c ∈ indent, isBlank c)
    (whole : '\n' ∉ indent ++ (other.module.toList ++ rest)) :
    lineCount (importLine root name).toList (indent ++ (other.module.toList ++ rest)) = 0 := by
  rw [lineCount_eq (importLine_ne_nil root name) whole, if_neg]
  intro eq
  rw [trim_append_left blank] at eq
  obtain ⟨front, back, split, solid, -⟩ := exists_trim (other.module.toList ++ rest)
  have begins : (importLine root name).toList = "import".toList ++ ' ' :: ("\x7b ".toList ++
      (name.module.toList ++ (" \x7d from '".toList ++ (modulePath root name ++ "';".toList)))) := by
    rw [toList_importLine]
    simp
  rw [eq, begins, List.append_assoc, ← List.append_assoc front] at split
  have space := title.module.not_mem (c := ' ') (by decide) (by decide)
  have capital : 'M' ∈ other.module.toList := by
    rw [toList_module]
    simp
  -- The line goes on with a space, which is none of the module, so the module would be before it.
  have early : 'M' ∈ front ++ "import".toList := by
    obtain ⟨as, e, -⟩ | ⟨cs, e, tail⟩ := List.append_eq_append_iff.mp split
    · rw [e]
      exact List.mem_append_left _ capital
    · cases cs with
      | nil =>
        rw [List.append_nil] at e
        exact e ▸ capital
      | cons c cs =>
        rw [e, (List.cons.inj tail).1.symm] at space
        exact absurd (by simp) space
  rw [List.mem_append] at early
  obtain mem | mem := early
  · exact absurd (solid 'M' mem) (by decide)
  · revert mem
    simp

/-- The line of the module that an empty list is filled with ends with the module. -/
private lemma lineCount_entry {other : EntityName} (title : IsIdentifier other.title) :
    lineCount (importLine root name).toList (entryIndent ++ other.module.toList) = 0 := by
  have oneLine := title.module.not_mem (c := '\n') (by decide) (by decide)
  refine lineCount_of_getLast? (c := 'e') ?_ ?_ (by decide) (by decide)
  · simp [entryIndent, oneLine]
  · rw [toList_module, ← List.append_assoc, List.getLast?_append_of_ne_nil _ (by simp)]
    simp

/-- The line behind the module that an empty list is filled with begins with the closing bracket. -/
private lemma lineCount_closed (back : List Char) :
    lineCount (importLine root name).toList ("  ".toList ++ firstLine (']' :: back)) = 0 := by
  obtain ⟨-, -, -, whole⟩ := exists_firstLine (']' :: back)
  refine lineCount_of_head? (c := ']') ?_ ?_ (by decide)
  · simp [whole]
  · rw [trim_append_left (by simp; decide)]
    exact head?_trim rfl (by decide)

section

variable {document : List Char} {list : ImportsList} {layout : Layout document list}

/-- If an empty list loses white space without a line feed at its end, a comment is the last thing
in it that stays. -/
lemma getLast?_kept {kept blanks : List Char} (empty : list.entries = [])
    (split : layout.inside = kept ++ blanks) (blank : ∀ c ∈ blanks, isBlank c)
    (solid : ∀ c, kept.getLast? = some c → isBlank c = false) (newline : '\n' ∉ blanks) :
    kept = [] ∨ kept.getLast? = some '/' := by
  cases kept using List.reverseRecOn with
  | nil => exact .inl rfl
  | append_singleton init c =>
    refine .inr (getLast?_of_bytes (by decide) ?_)
    have gap := layout.isGap_contents empty
    have chained := layout.chained_contents
    obtain ⟨u, x, hu⟩ : ∃ u x, bytes (init ++ [c]) = u ++ [x] := by
      have ne : bytes (init ++ [c]) ≠ [] := fun none => by simpa using bytes_eq_nil none
      exact ⟨_, _, (List.dropLast_append_getLast ne).symm⟩
    have whole : spell (layout.contents.map Lexeme.piece) = u ++ x :: bytes blanks := by
      rw [← layout.bytes_inside, split, bytes_append, hu, List.append_assoc]
      rfl
    obtain ⟨qs, rs, pieces, hqs, hrs⟩ := exists_boundary chained (by decide) whole (.inr gap)
      (isPlain_of_isBlank blank newline)
    rw [pieces] at gap chained
    rw [← hu] at hqs
    cases qs using List.reverseRecOn with
    | nil => exact absurd (bytes_eq_nil hqs.symm) (by simp)
    | append_singleton qs p =>
      have ends (b : UInt8) (h : p.2.getLast? = some b) :
          (bytes (init ++ [c])).getLast? = some b := by
        have ne : p.2 ≠ [] := fun none => by simp [none] at h
        rw [← hqs, spell_append, spell_cons, spell_nil, List.append_nil,
          List.getLast?_append_of_ne_nil _ ne, h]
      have last := (chained_append.mp (chained_append.mp chained).1).2.1
      obtain slash | stop | ⟨d, ascii, last, isBlank⟩ := last.getLast?_or (gap p (by simp))
      · exact ends _ slash
      · -- A comment up to the end of a line would be followed by a line feed.
        rw [lead_nil, lead, hrs] at stop
        cases tail : bytes blanks with
        | nil =>
          rw [tail] at stop
          exact absurd stop (by decide)
        | cons b bs =>
          have mem : '\n'.toUInt8 ∈ bytes blanks := by
            rw [tail] at stop ⊢
            exact List.mem_cons.mpr (.inl stop.symm)
          exact absurd ((mem_bytes_iff (by decide)).mp mem) newline
      · have last := solid d (getLast?_of_bytes ascii (ends _ last))
        rw [isBlank] at last
        cases last

/-- What stays of an empty list ends with its bracket, with a comment or before a line feed, and so
does the last line up to there. -/
private lemma lineCount_kept {front back kept blanks : List Char} (empty : list.entries = [])
    (split : layout.inside = kept ++ blanks) (blank : ∀ c ∈ blanks, isBlank c)
    (solid : ∀ c, kept.getLast? = some c → isBlank c = false)
    (none : lineCount (importLine root name).toList
      (lastLine (front ++ '[' :: kept) ++ (blanks ++ firstLine (']' :: back))) = 0) :
    lineCount (importLine root name).toList (lastLine (front ++ '[' :: kept)) = 0 := by
  obtain ⟨-, -, -, whole⟩ := exists_lastLine (front ++ '[' :: kept)
  by_cases newline : '\n' ∈ blanks
  · obtain ⟨indent, -, -, count⟩ := exists_lineCount_blank (importLine_ne_nil root name) whole blank
      newline (firstLine (']' :: back))
    omega
  · obtain rfl | slash := getLast?_kept empty split blank solid newline
    · exact lineCount_of_getLast? whole (c := '[') (getLast?_lastLine (by simp) (by decide))
        (by decide) (by decide)
    · have ends : (front ++ '[' :: kept).getLast? = some '/' := by
        rw [List.append_cons, List.getLast?_append, slash]
        rfl
      exact lineCount_of_getLast? whole (getLast?_lastLine ends (by decide)) (by decide) (by decide)

/-- Behind the last entry of a list there is a comma, be it an old one or a new one. -/
private lemma comma_mem_lastLine (entry : LastEntry layout) (front : List Char) :
    ',' ∈ lastLine (front ++ '[' :: entry.text) ++
      (if entry.text.getLast? = some ',' then [] else [',']) := by
  split_ifs with last
  · have ends : (front ++ '[' :: entry.text).getLast? = some ',' := by
      rw [List.append_cons, List.getLast?_append, last]
      rfl
    rw [List.append_nil]
    exact List.mem_of_getLast? (getLast?_lastLine ends (by decide))
  · simp

/-- Of the lines that a module behind the last entry makes, one has a comma, and the module begins
the other one if there is one. -/
private lemma lineCount_appended {module : EntityName} {front back separator : List Char}
    (entry : LastEntry layout) (sep : Separator layout.inside separator)
    (comma : ',' ∉ (importLine root name).toList) (title : IsIdentifier module.title) :
    lineCount (importLine root name).toList (lastLine (front ++ '[' :: entry.text) ++
      (((if entry.text.getLast? = some ',' then [] else [',']) ++ separator ++
        module.module.toList) ++ firstLine (entry.rest ++ ']' :: back))) = 0 := by
  have solid := importLine_ne_nil root name
  have oneLine := title.module.not_mem (c := '\n') (by decide) (by decide)
  obtain ⟨-, -, -, wholeFront⟩ := exists_lastLine (front ++ '[' :: entry.text)
  obtain ⟨-, -, -, wholeBack⟩ := exists_firstLine (entry.rest ++ ']' :: back)
  have mem := comma_mem_lastLine entry front
  have wholeAdded : '\n' ∉ if entry.text.getLast? = some ',' then [] else [','] := by
    split_ifs <;> simp
  generalize (if entry.text.getLast? = some ',' then [] else [',']) = added at mem wholeAdded ⊢
  cases sep with
  | space =>
    refine Text.lineCount_eq_zero solid ?_ (c := ',') ?_ (by decide) comma
    · simp [wholeFront, wholeBack, wholeAdded, oneLine]
    · rw [List.append_assoc added, List.append_assoc added, ← List.append_assoc]
      exact List.mem_append_left _ mem
  | @newline indent _ hindent =>
    have blank : ∀ c ∈ indent, isBlank c := by
      intro c inside
      obtain rfl | rfl := hindent c inside <;> decide
    have clear : '\n' ∉ indent := by
      intro inside
      obtain e | e := hindent _ inside <;> exact absurd e (by decide)
    have text : lastLine (front ++ '[' :: entry.text) ++
        ((added ++ '\n' :: indent ++ module.module.toList) ++
          firstLine (entry.rest ++ ']' :: back)) =
        (lastLine (front ++ '[' :: entry.text) ++ added) ++ '\n' ::
          (indent ++ (module.module.toList ++ firstLine (entry.rest ++ ']' :: back))) := by
      simp
    have before : lineCount (importLine root name).toList
        (lastLine (front ++ '[' :: entry.text) ++ added) = 0 :=
      Text.lineCount_eq_zero solid (by simp [wholeFront, wholeAdded]) mem (by decide) comma
    have behind : lineCount (importLine root name).toList
        (indent ++ (module.module.toList ++ firstLine (entry.rest ++ ']' :: back))) = 0 :=
      lineCount_module title blank (by simp [clear, oneLine, wholeBack])
    rw [text, lineCount_append solid, before, behind]

/-- An insertion makes no import line of the lines of a list. -/
lemma Extended.lineCount_eq_zero {module : EntityName} {inside : List Char}
    (ext : Extended layout module.module.toList inside) (comma : ',' ∉ (importLine root name).toList)
    (title : IsIdentifier module.title) {front back : List Char}
    (none : lineCount (importLine root name).toList
      (front ++ '[' :: (layout.inside ++ ']' :: back)) = 0) :
    lineCount (importLine root name).toList (front ++ '[' :: (inside ++ ']' :: back)) = 0 := by
  cases ext with
  | @fill kept blanks empty split blank solid =>
    obtain ⟨others, old, new⟩ := exists_lineCount_fill (importLine_ne_nil root name) front back kept
      blanks module.module.toList
    rw [← split, none] at old
    obtain ⟨untouched, broken⟩ := Nat.add_eq_zero_iff.mp old.symm
    rw [new, lineCount_kept empty split blank solid broken, lineCount_entry title,
      lineCount_closed, untouched]
  | @append separator entry sep =>
    obtain ⟨others, old, new⟩ := exists_lineCount_append (importLine_ne_nil root name) front back
      entry.text entry.rest
    rw [← entry.inside, none] at old
    obtain ⟨untouched, -⟩ := Nat.add_eq_zero_iff.mp old.symm
    rw [List.append_assoc entry.text, List.append_assoc entry.text, new,
      lineCount_appended entry sep comma title, untouched]

end

end EntityForge.Registry

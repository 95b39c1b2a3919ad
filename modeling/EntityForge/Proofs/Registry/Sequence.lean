import EntityForge.Proofs.Registry.Division
import EntityForge.Proofs.Registry.ListLine
import EntityForge.Proofs.Registry.Registration
import Mathlib

/-!
# Registering one entity after the other

Whatever entities are registered in a registry, in whatever order and however often, each has its
line and its place in the list once. `Grown` is what every registration keeps: the registry is a
stack of new import lines on top of the old text, in which at most the part between the brackets of
the list has changed.
-/

namespace EntityForge.Registry

open Text

/-- Registers entities one after the other. -/
def registerAll? (root document : String) (names : List EntityName) : Option String :=
  names.foldlM (fun document name => (register? root document name).map (·.document)) document

/-- The members of a list that pass a test, each where it comes first. -/
def firsts {α : Type} [BEq α] (p : α → Bool) (xs : List α) : List α :=
  (xs.filter p).eraseDups

/-- The import lines that a registry lacks, in the order in which entities ask for them. -/
def newLines (root : String) (document : List Char) (names : List EntityName) :
    List (List Char) :=
  firsts (!hasLine document ·) (names.map fun name => (importLine root name).toList)

/-- The modules that a list lacks, in the order in which entities ask for them. -/
def newModules (entries : List Piece) (names : List EntityName) : List (List UInt8) :=
  firsts (wordPiece · ∉ entries) (names.map fun name => bytesOf name.module)

/-- Lines one below the other, the last one on top. -/
def stack (ls : List (List Char)) : List Char :=
  ls.reverse.flatMap (· ++ ['\n'])

/-- The lines that a list stands on, from the one with its first bracket to the one with its last. -/
def ImportsList.touched (list : ImportsList) (document : List Char) : List Char :=
  match cut? document list.opening.start, cut? document list.closing.stop with
  | some (before, _), some (_, after) =>
    lastLine before ++ Span.slice ⟨list.opening.start, list.closing.stop⟩ document ++ firstLine after
  | _, _ => []

/-- The lines of a list in a layout. -/
lemma Layout.touched_eq {document : List Char} {list : ImportsList}
    (layout : Layout document list) :
    list.touched document =
      lastLine layout.before ++ '[' :: (layout.inside ++ ']' :: firstLine layout.after) := by
  have size : list.closing.stop =
      (bytes (layout.before ++ '[' :: (layout.inside ++ [']']))).length := by
    rw [layout.stop_closing, bytes_append, bytes_cons, bytes_append, bytes_cons]
    simp [utf8EncodeChar_of_ascii]
    omega
  have opening := cut?_eq_some layout.text layout.start_opening
  have closing : cut? document list.closing.stop =
      some (layout.before ++ '[' :: (layout.inside ++ [']']), layout.after) :=
    cut?_eq_some (layout.text.trans (by simp)) size
  have slice : Span.slice? ⟨list.opening.start, list.closing.stop⟩ document =
      some ('[' :: (layout.inside ++ [']'])) := by
    refine slice?_eq_some (c := layout.after) (layout.text.trans (by simp)) layout.start_opening ?_
    rw [size, layout.start_opening, bytes_append, List.length_append]
  rw [ImportsList.touched, opening, closing]
  simp only [Span.slice, slice]
  simp

/-! ### First occurrences -/

section

variable {α : Type} [BEq α] [LawfulBEq α]

/-- Whatever passes the test is there the first time. -/
lemma mem_firsts {p : α → Bool} {xs : List α} {a : α} : a ∈ firsts p xs ↔ a ∈ xs ∧ p a := by
  rw [firsts, List.mem_eraseDups, List.mem_filter]

/-- One more member is new unless it fails the test or is there already. -/
lemma firsts_concat (p : α → Bool) (xs : List α) (a : α) :
    firsts p (xs ++ [a]) =
      if p a = false ∨ a ∈ firsts p xs then firsts p xs else firsts p xs ++ [a] := by
  have append : firsts p (xs ++ [a]) =
      firsts p xs ++ (([a].filter p).removeAll (xs.filter p)).eraseDups := by
    rw [firsts, List.filter_append, List.eraseDups_append]
    rfl
  cases pass : p a with
  | false => simp [append, pass]
  | true =>
    by_cases mem : a ∈ xs
    · simp [append, pass, mem_firsts, mem, List.removeAll]
    · simp [append, pass, mem_firsts, mem, List.removeAll, List.eraseDups_cons]

/-- Every member that passes the test stands among the first ones once. -/
lemma count_firsts {p : α → Bool} {xs : List α} {a : α} (mem : a ∈ xs) (pass : p a = true) :
    (firsts p xs).count a = 1 := by
  refine List.count_eq_one_of_mem ?_ (mem_firsts.mpr ⟨mem, pass⟩)
  clear mem
  induction xs using List.reverseRecOn with
  | nil => exact List.nodup_nil
  | append_singleton xs b ih =>
    rw [firsts_concat]
    split_ifs with known
    · exact ih
    · refine List.nodup_append.mpr ⟨ih, List.nodup_singleton b, ?_⟩
      rintro c hc d hd rfl
      exact known (.inr (List.mem_singleton.mp hd ▸ hc))

/-- What fails the test does not stand among them. -/
lemma count_firsts_of_neg {p : α → Bool} {xs : List α} {a : α} (fail : p a = false) :
    (firsts p xs).count a = 0 := by
  refine List.count_eq_zero.mpr fun inside => ?_
  rw [(mem_firsts.mp inside).2] at fail
  cases fail

/-- If the test is whether a member is missing, the first ones make up for it: there is one with them,
or as many as there were. -/
lemma count_firsts_add {p : α → Bool} {xs : List α} {a : α} {n : Nat} (mem : a ∈ xs)
    (missing : p a = true ↔ n = 0) : (firsts p xs).count a + n = max 1 n := by
  cases pass : p a with
  | true =>
    rw [count_firsts mem pass, missing.mp pass]
    rfl
  | false =>
    have more : n ≠ 0 := fun none => Bool.false_ne_true (pass.symm.trans (missing.mpr none))
    rw [count_firsts_of_neg pass]
    omega

end

/-! ### Stacks -/

/-- A line that is put on a stack is on top of the others. -/
lemma stack_concat (ls : List (List Char)) (l : List Char) :
    stack (ls ++ [l]) = l ++ '\n' :: stack ls := by
  simp [stack]

/-- A stack ends with the end of a line. -/
lemma endsLine_stack (ls : List (List Char)) : EndsLine (stack ls) := by
  cases ls with
  | nil => exact .inl rfl
  | cons l ls => exact .inr ⟨ls.reverse.flatMap (· ++ ['\n']) ++ l, by simp [stack]⟩

/-- A line is on a stack of trimmed lines as often as among the lines. -/
lemma lineCount_stack {line : List Char} (ne : line ≠ []) {ls : List (List Char)}
    (whole : ∀ l ∈ ls, '\n' ∉ l) (trimmed : ∀ l ∈ ls, trim l = l) :
    lineCount line (stack ls) = ls.count line := by
  induction ls using List.reverseRecOn with
  | nil => rfl
  | append_singleton ls l ih =>
    have here := lineCount_eq ne (whole l (by simp))
    rw [trimmed l (by simp)] at here
    rw [stack_concat, lineCount_append ne, here, ih (fun l mem => whole l (by simp [mem]))
      (fun l mem => trimmed l (by simp [mem])), List.count_append, List.count_singleton, Nat.add_comm]
    simp

/-! ### Entries -/

/-- Modules that are added stand in a list as often as before and as they are added. -/
lemma count_foldl_extend (entries : List Piece) (modules : List (List UInt8)) (word : List UInt8) :
    (modules.foldl extend entries).count (wordPiece word) =
      entries.count (wordPiece word) + modules.count word := by
  have step (entries : List Piece) (module : List UInt8) :
      (extend entries module).count (wordPiece word) =
        entries.count (wordPiece word) + [module].count word := by
    have comma : wordPiece word ∉ [comma] := by simp [wordPiece, markPiece]
    have single : [wordPiece module].count (wordPiece word) = [module].count word := by
      simp [List.count_singleton, wordPiece]
    rw [extend]
    split_ifs
    · rw [List.count_append, single]
    · rw [List.append_cons, List.count_append, List.count_append, List.count_eq_zero.mpr comma,
        single, Nat.add_zero]
  induction modules generalizing entries with
  | nil => rfl
  | cons module modules ih =>
    rw [List.foldl_cons, ih, step, ← List.singleton_append (l := modules), List.count_append,
      Nat.add_assoc]

/-! ### One step -/

/-- What registering entities keeps: on top of the registry are the new import lines, and in its list
are the new modules behind the old entries. No line that the list stands on is an import line. -/
inductive Grown (root : String) (names : List EntityName) (document : List Char)
    (done : List EntityName) : List Char → Prop where
  | noList {registry} :
    ImportsList.find? document = none →
    ImportsList.find? registry = none →
    registry = stack (newLines root document done) ++ document →
    Grown root names document done registry
  | list {before inside after inside' entries registry} :
    Division document before inside after entries →
    Division registry (stack (newLines root document done) ++ before) inside' after
      ((newModules entries done).foldl extend entries) →
    (∀ name ∈ names, lineCount (importLine root name).toList
      (lastLine before ++ '[' :: (inside ++ ']' :: firstLine after)) = 0) →
    (∀ name ∈ names, lineCount (importLine root name).toList
      (lastLine before ++ '[' :: (inside' ++ ']' :: firstLine after)) = 0) →
    Grown root names document done registry

section

variable {root : String} {names done : List EntityName} {document registry : List Char}
  (newline : '\n' ∉ root.toList) (title : ∀ name ∈ names, IsIdentifier name.title)
  (slug : ∀ name ∈ names, IsIdentifier name.slug)

/-- The count of a line in a text with a list does not depend on what is in the list, if no line that
the list stands on is the line. -/
private lemma lineCount_inside {line : List Char} (ne : line ≠ []) {before inside inside' after : List Char}
    (h : lineCount line (lastLine before ++ '[' :: (inside ++ ']' :: firstLine after)) = 0)
    (h' : lineCount line (lastLine before ++ '[' :: (inside' ++ ']' :: firstLine after)) = 0) :
    lineCount line (before ++ '[' :: (inside ++ ']' :: after)) =
      lineCount line (before ++ '[' :: (inside' ++ ']' :: after)) := by
  obtain ⟨others, count⟩ := exists_lineCount ne before after
  have old := count ('[' :: (inside ++ [']']))
  have new := count ('[' :: (inside' ++ [']']))
  simp only [List.cons_append, List.append_assoc, List.nil_append] at old new
  rw [old, new, h, h']

include newline title slug

/-- An import line occurs as often as in the old text, and once more if it is new. -/
lemma Grown.lineCount_eq (h : Grown root names document done registry) {name : EntityName}
    (mem : name ∈ names) (sub : ∀ name ∈ done, name ∈ names) :
    lineCount (importLine root name).toList registry =
      (newLines root document done).count (importLine root name).toList +
        lineCount (importLine root name).toList document := by
  have solid := importLine_ne_nil root name
  have top : lineCount (importLine root name).toList (stack (newLines root document done)) =
      (newLines root document done).count (importLine root name).toList := by
    have isLine (l : List Char) (inside : l ∈ newLines root document done) :
        ∃ other ∈ names, l = (importLine root other).toList := by
      obtain ⟨other, here, rfl⟩ := List.mem_map.mp (mem_firsts.mp inside).1
      exact ⟨other, sub other here, rfl⟩
    refine lineCount_stack solid ?_ ?_
    · intro l inside
      obtain ⟨other, here, e⟩ := isLine l inside
      rw [e]
      exact not_mem_importLine (title other here) (slug other here) (by decide) (by decide) newline
        (by simp)
    · intro l inside
      obtain ⟨other, here, e⟩ := isLine l inside
      rw [e]
      exact trim_importLine root other
  cases h with
  | noList _ _ e => rw [e, lineCount_append_of_endsLine solid (endsLine_stack _), top]
  | list old new before after =>
    rw [new.text, List.append_assoc, lineCount_append_of_endsLine solid (endsLine_stack _), top,
      old.text, lineCount_inside solid (before name mem) (after name mem)]

/-- An import line that was asked for is there once, unless it was there more often. -/
private lemma Grown.lineCount_max (h : Grown root names document done registry)
    (sub : ∀ name ∈ done, name ∈ names) {name : EntityName} (mem : name ∈ done) :
    lineCount (importLine root name).toList registry =
      max 1 (lineCount (importLine root name).toList document) := by
  rw [h.lineCount_eq newline title slug (sub name mem) sub]
  refine count_firsts_add (List.mem_map_of_mem mem) ?_
  rw [Bool.not_eq_true', ← Bool.not_eq_true, hasLine_iff]
  omega

/-- The registry with the import line of one more entity has that line on its stack. -/
private lemma stack_concat_eq (h : Grown root names document done registry) {name : EntityName}
    (mem : name ∈ names) (sub : ∀ name ∈ done, name ∈ names) :
    stack (newLines root document (done ++ [name])) =
      if hasLine registry (importLine root name).toList then stack (newLines root document done)
      else (importLine root name).toList ++ '\n' :: stack (newLines root document done) := by
  have count := h.lineCount_eq newline title slug mem sub
  have there : hasLine registry (importLine root name).toList = true ↔
      (!hasLine document (importLine root name).toList) = false ∨
        (importLine root name).toList ∈ newLines root document done := by
    rw [Bool.not_eq_false', hasLine_iff, hasLine_iff, count, ← List.count_pos_iff]
    omega
  rw [newLines, List.map_append, List.map_singleton, firsts_concat]
  split_ifs with known line line
  · rfl
  · exact absurd (there.mpr known) line
  · exact absurd (there.mp line) known
  · exact stack_concat _ _

end

/-- One more module is new unless the list has it or it has been added. -/
private lemma newModules_concat (entries : List Piece) (done : List EntityName) (name : EntityName) :
    (newModules entries (done ++ [name])).foldl extend entries =
      if wordPiece (bytesOf name.module) ∈ (newModules entries done).foldl extend entries then
        (newModules entries done).foldl extend entries
      else extend ((newModules entries done).foldl extend entries) (bytesOf name.module) := by
  have there : wordPiece (bytesOf name.module) ∈ (newModules entries done).foldl extend entries ↔
      decide (wordPiece (bytesOf name.module) ∉ entries) = false ∨
        bytesOf name.module ∈ newModules entries done := by
    rw [decide_eq_false_iff_not, not_not, ← List.count_pos_iff, count_foldl_extend,
      ← List.count_pos_iff, ← List.count_pos_iff]
    omega
  rw [newModules, List.map_append, List.map_singleton, firsts_concat]
  split_ifs with known word word
  · rfl
  · exact absurd (there.mpr known) word
  · exact absurd (there.mp word) known
  · exact List.foldl_concat ..

/-- A module that was asked for is in the list once, unless it was there more often. -/
private lemma count_newModules (entries : List Piece) {done : List EntityName} {name : EntityName}
    (mem : name ∈ done) :
    ((newModules entries done).foldl extend entries).count (wordPiece (bytesOf name.module)) =
      max 1 (entries.count (wordPiece (bytesOf name.module))) := by
  rw [count_foldl_extend, Nat.add_comm]
  refine count_firsts_add (List.mem_map_of_mem mem) ?_
  rw [decide_eq_true_iff, List.count_eq_zero]

/-- There is a list if there was one, with the new modules behind the old entries. -/
private lemma Grown.find?_cases {root : String} {names done : List EntityName}
    {document registry : List Char} (h : Grown root names document done registry) :
    (ImportsList.find? document = none ∧ ImportsList.find? registry = none) ∨
      ∃ list list', ImportsList.find? document = some list ∧
        ImportsList.find? registry = some list' ∧
        list'.entries.map Lexeme.piece =
          (newModules (list.entries.map Lexeme.piece) done).foldl extend
            (list.entries.map Lexeme.piece) := by
  cases h with
  | noList absent here => exact .inl ⟨absent, here⟩
  | list old new =>
    obtain ⟨list, find, entries⟩ := old.exists_find?
    obtain ⟨list', find', entries'⟩ := new.exists_find?
    exact .inr ⟨list, list', find, find', entries ▸ entries'⟩

/-- Below the new import lines nothing has changed but what is between the brackets of the list. -/
private lemma Grown.exists_body {root : String} {names done : List EntityName}
    {document registry : List Char} (h : Grown root names document done registry) :
    ∃ body, registry = stack (newLines root document done) ++ body ∧
      (ImportsList.find? document = none → body = document) ∧
      ∀ list, ImportsList.find? document = some list → ∃ before inside inside' after,
        document = before ++ (inside ++ after) ∧ body = before ++ (inside' ++ after) ∧
        (bytes before).length = list.opening.stop ∧
        (bytes (before ++ inside)).length = list.closing.start := by
  cases h with
  | noList absent _ e =>
    refine ⟨document, e, fun _ => rfl, fun list find => ?_⟩
    rw [absent] at find
    cases find
  | @list before inside after inside' _ _ old new =>
    refine ⟨before ++ '[' :: (inside' ++ ']' :: after), by rw [new.text, List.append_assoc],
      fun absent => ?_, fun list find => ?_⟩
    · obtain ⟨list, find, -⟩ := old.exists_find?
      rw [absent] at find
      cases find
    · obtain ⟨layout⟩ := exists_layout find
      obtain ⟨rfl, rfl, rfl, -⟩ := old.unique layout.division
      refine ⟨layout.before ++ ['['], layout.inside, inside', ']' :: layout.after,
        layout.text.trans (by simp), by simp, ?_, ?_⟩
      · rw [layout.stop_opening, bytes_append, List.length_append]
        rfl
      · rw [layout.start_closing, bytes_append, bytes_append, List.length_append,
          List.length_append]
        rfl

/-- A line on top makes no list where there is none. -/
private lemma find?_importLine_append {root : String} {name : EntityName} {registry : List Char}
    (quote : '\'' ∉ root.toList) (title : IsIdentifier name.title) (slug : IsIdentifier name.slug)
    (absent : ImportsList.find? registry = none) :
    ImportsList.find? ((importLine root name).toList ++ '\n' :: registry) = none := by
  cases find : ImportsList.find? ((importLine root name).toList ++ '\n' :: registry) with
  | none => rfl
  | some list =>
    obtain ⟨_, _, _, _, -, first⟩ := find?_eq_some_iff.mp find
    rw [code_importLine_append quote title slug] at first
    obtain ⟨_, -, first⟩ := (IsFirstList.append_left_iff (imports_not_mem_importCode root name)).mp first
    obtain ⟨list, find, -⟩ := first.exists_find?
    rw [absent] at find
    cases find

/-- Registering one more entity keeps what registering the others has kept. -/
lemma Grown.step {root registry : String} {names done : List EntityName} {document : List Char}
    (newline : '\n' ∉ root.toList) (quote : '\'' ∉ root.toList) (comma : ',' ∉ root.toList)
    (title : ∀ name ∈ names, IsIdentifier name.title)
    (slug : ∀ name ∈ names, IsIdentifier name.slug)
    (h : Grown root names document done registry.toList) (sub : ∀ name ∈ done, name ∈ names)
    {name : EntityName} (mem : name ∈ names) {r : Registration}
    (registers : register? root registry name = some r) :
    Grown root names document (done ++ [name]) r.document.toList := by
  have top := stack_concat_eq newline title slug h mem sub
  have registers := registers_of_register? registers
  have same : imported root registry name =
      if hasLine registry.toList (importLine root name).toList then registry.toList
      else (importLine root name).toList ++ '\n' :: registry.toList := rfl
  cases h with
  | noList absent here e =>
    have text : imported root registry name =
        stack (newLines root document (done ++ [name])) ++ document := by
      rw [same, top, e]
      split_ifs <;> simp
    have none : ImportsList.find? (imported root registry name) = none := by
      rw [same]
      split_ifs
      · exact here
      · exact find?_importLine_append quote (title name mem) (slug name mem) here
    cases registers with
    | noList =>
      rw [String.toList_ofList, text]
      exact .noList absent (text ▸ none) rfl
    | present find =>
      rw [none] at find
      cases find
    | added _ find =>
      rw [none] at find
      cases find
  | @list before inside after inside' entries _ divided now apart apart' =>
    have now : Division (imported root registry name)
        (stack (newLines root document (done ++ [name])) ++ before) inside' after
        ((newModules entries done).foldl extend entries) := by
      rw [same, top]
      split_ifs
      · exact now
      · rw [List.append_assoc, List.cons_append]
        exact now.importLine_append quote (title name mem) (slug name mem)
    obtain ⟨list', find', entries'⟩ := now.exists_find?
    cases registers with
    | noList none =>
      rw [none] at find'
      cases find'
    | present find word =>
      rw [find] at find'
      cases find'
      rw [hasWord_iff, entries'] at word
      rw [String.toList_ofList]
      refine .list divided ?_ apart apart'
      rw [newModules_concat, if_pos word]
      exact now
    | @added _ inside'' layout find word ext =>
      rw [find] at find'
      cases find'
      obtain ⟨hbefore, hinside, hafter, -⟩ := layout.division.unique now
      have absent : wordPiece (bytesOf name.module) ∉
          (newModules entries done).foldl extend entries := by
        rw [← entries', ← hasWord_iff, word]
        exact Bool.false_ne_true
      have grown := ext.division (module_ne_nil name) (title name mem).module
      rw [hbefore, hafter, entries'] at grown
      rw [String.toList_ofList, hbefore, hafter]
      refine @Grown.list _ _ _ _ _ _ _ inside'' _ _ divided ?_ apart fun other here => ?_
      · rw [newModules_concat, if_neg absent]
        exact grown
      · refine ext.lineCount_eq_zero ?_ (title name mem) ?_
        · exact not_mem_importLine (title other here) (slug other here) (by decide) (by decide) comma
            (by simp)
        · rw [hinside]
          exact apart' other here

/-! ### Runs -/

/-- The first of several entities is registered before the others. -/
lemma registerAll?_cons {root document : String} {name : EntityName} {r : Registration}
    (first : register? root document name = some r) (names : List EntityName) :
    registerAll? root document (name :: names) = registerAll? root r.document names := by
  rw [registerAll?, List.foldlM_cons, first]
  rfl

/-- Registering entities keeps what registering those before them has kept. -/
lemma Grown.run {root registry result : String} {names done rest : List EntityName}
    {document : List Char} (newline : '\n' ∉ root.toList) (quote : '\'' ∉ root.toList)
    (comma : ',' ∉ root.toList) (title : ∀ name ∈ names, IsIdentifier name.title)
    (slug : ∀ name ∈ names, IsIdentifier name.slug)
    (h : Grown root names document done registry.toList) (sub : ∀ name ∈ done, name ∈ names)
    (more : ∀ name ∈ rest, name ∈ names) (e : registerAll? root registry rest = some result) :
    Grown root names document (done ++ rest) result.toList := by
  induction rest generalizing done registry with
  | nil =>
    rw [registerAll?, List.foldlM_nil] at e
    cases e
    rw [List.append_nil]
    exact h
  | cons name rest ih =>
    obtain ⟨here, later⟩ := List.forall_mem_cons.mp more
    rw [registerAll?, List.foldlM_cons] at e
    obtain ⟨next, first, e⟩ := Option.bind_eq_some_iff.mp e
    obtain ⟨r, registers, rfl⟩ := Option.map_eq_some_iff.mp first
    have step := h.step newline quote comma title slug sub here registers
    rw [List.append_cons]
    refine ih step (fun other mem => ?_) later e
    obtain mem | mem := List.mem_append.mp mem
    · exact sub other mem
    · exact List.mem_singleton.mp mem ▸ here

/-- Before anything is registered there is nothing new. -/
lemma Grown.nil {root : String} {names : List EntityName} {document : List Char}
    (apart : ∀ list, ImportsList.find? document = some list →
      ∀ l ∈ lines (list.touched document), ∀ name ∈ names,
        trim l ≠ (importLine root name).toList) :
    Grown root names document [] document := by
  cases find : ImportsList.find? document with
  | none => exact .noList find find rfl
  | some list =>
    obtain ⟨layout⟩ := exists_layout find
    have none (name : EntityName) (mem : name ∈ names) : lineCount (importLine root name).toList
        (lastLine layout.before ++ '[' :: (layout.inside ++ ']' :: firstLine layout.after)) = 0 := by
      rw [← layout.touched_eq]
      refine List.countP_eq_zero.mpr fun l inside => ?_
      simpa using apart list find l inside name mem
    exact .list layout.division layout.division none none

/-- To register an entity again changes nothing. -/
lemma Grown.present {root registry : String} {names done : List EntityName} {document : List Char}
    (newline : '\n' ∉ root.toList) (title : ∀ name ∈ names, IsIdentifier name.title)
    (slug : ∀ name ∈ names, IsIdentifier name.slug)
    (h : Grown root names document done registry.toList) (sub : ∀ name ∈ done, name ∈ names)
    {name : EntityName} (mem : name ∈ done) : ∃ listFound,
      register? root registry name = some ⟨registry, false, false, listFound⟩ := by
  have count := h.lineCount_max newline title slug sub mem
  refine ⟨_, register?_of_present ?_ fun list find => ?_⟩
  · rw [hasLine_iff, count]
    omega
  · obtain ⟨-, none⟩ | ⟨_, list', -, find', entries⟩ := h.find?_cases
    · rw [none] at find
      cases find
    · cases find.symm.trans find'
      rw [hasWord_iff, entries, ← List.count_pos_iff, count_newModules _ mem]
      omega

/-- A sequence of registrations that has a result has one after each of them. -/
lemma exists_registerAll?_of_prefix {root document result : String}
    {names done : List EntityName} (h : registerAll? root document names = some result)
    (pre : done <+: names) : ∃ registry, registerAll? root document done = some registry := by
  obtain ⟨rest, rfl⟩ := pre
  rw [registerAll?, List.foldlM_append] at h
  obtain ⟨registry, first, -⟩ := Option.bind_eq_some_iff.mp h
  exact ⟨registry, first⟩

/-- How often a word stands among tokens. -/
private lemma countP_isWord (ts : List Token) (word : List UInt8) :
    ts.countP (isWord word) = (ts.map Lexeme.piece).count (wordPiece word) := by
  rw [List.count, List.countP_map]
  refine List.countP_congr fun t _ => ?_
  rw [isWord_iff]
  simp

/-- Whatever entities are registered, in whatever order and however often, every one of them has
its import line in the registry once and its module in the list once, unless there were more to
begin with. The list stays where it is after each registration, with the new modules behind the old
entries in the order of the first registrations; the new import lines are on top, the last one
first, and what is below them has changed between the brackets only. The lines of the list must not
be import lines themselves. -/
theorem registerAll?_once {root document result : String} {names : List EntityName}
    (newline : '\n' ∉ root.toList) (quote : '\'' ∉ root.toList) (comma : ',' ∉ root.toList)
    (title : ∀ name ∈ names, IsIdentifier name.title)
    (slug : ∀ name ∈ names, IsIdentifier name.slug)
    (apart : ∀ list, ImportsList.find? document.toList = some list →
      ∀ l ∈ lines (list.touched document.toList), ∀ name ∈ names,
        trim l ≠ (importLine root name).toList)
    (h : registerAll? root document names = some result) :
    (∀ name ∈ names,
      lineCount (importLine root name).toList result.toList =
        max 1 (lineCount (importLine root name).toList document.toList)) ∧
    (∀ list, ImportsList.find? document.toList = some list →
      ∀ done, done <+: names → ∃ registry list',
        registerAll? root document done = some registry ∧
        ImportsList.find? registry.toList = some list' ∧
        list'.entries.map Lexeme.piece =
          (newModules (list.entries.map Lexeme.piece) done).foldl extend
            (list.entries.map Lexeme.piece) ∧
        ∀ name ∈ done, list'.entries.countP (isWord (bytesOf name.module)) =
          max 1 (list.entries.countP (isWord (bytesOf name.module)))) ∧
    ∃ body,
      result.toList = stack (newLines root document.toList names) ++ body ∧
      (ImportsList.find? document.toList = none → body = document.toList) ∧
      ∀ list, ImportsList.find? document.toList = some list → ∃ before inside inside' after,
        document.toList = before ++ (inside ++ after) ∧
        body = before ++ (inside' ++ after) ∧
        (bytes before).length = list.opening.stop ∧
        (bytes (before ++ inside)).length = list.closing.start := by
  have run (done : List EntityName) (pre : done <+: names) (registry : String)
      (e : registerAll? root document done = some registry) :
      Grown root names document.toList done registry.toList :=
    (Grown.nil apart).run newline quote comma title slug (by simp) (fun _ mem => pre.subset mem) e
  have grown := run names (List.prefix_refl names) result h
  refine ⟨fun name mem => ?_, fun list find done pre => ?_, grown.exists_body⟩
  · exact grown.lineCount_max newline title slug (fun _ here => here) mem
  · obtain ⟨registry, e⟩ := exists_registerAll?_of_prefix h pre
    obtain ⟨absent, -⟩ | ⟨_, list', here, find', entries⟩ := (run done pre registry e).find?_cases
    · rw [absent] at find
      cases find
    · cases find.symm.trans here
      refine ⟨registry, list', e, find', entries, fun name mem => ?_⟩
      rw [countP_isWord, countP_isWord, entries, count_newModules _ mem]

/-- Three registrations of two entities, the list having the module of one of them. -/
theorem registerAll?_once_of_repeated :
    ∃ result list,
      registerAll? "../modules" "@Module(\x7b imports: [PostModule] \x7d)\n"
        [⟨"user"⟩, ⟨"Post"⟩, ⟨"USER"⟩] = some result ∧
      ImportsList.find? result.toList = some list ∧
      lineCount (importLine "../modules" ⟨"USER"⟩).toList result.toList = 1 ∧
      list.entries.countP (isWord (bytesOf "PostModule")) = 1 := by
  have h : registerAll? "../modules" "@Module(\x7b imports: [PostModule] \x7d)\n"
      [⟨"user"⟩, ⟨"Post"⟩, ⟨"USER"⟩] =
      some ("import \x7b PostModule \x7d from '../modules/post/post.module';\n" ++
        "import \x7b UserModule \x7d from '../modules/user/user.module';\n" ++
        "@Module(\x7b imports: [PostModule, UserModule] \x7d)\n") := by
    have user : register? "../modules" "@Module(\x7b imports: [PostModule] \x7d)\n" ⟨"user"⟩ =
        some ⟨"import \x7b UserModule \x7d from '../modules/user/user.module';\n" ++
          "@Module(\x7b imports: [PostModule, UserModule] \x7d)\n", true, true, true⟩ := by
      decide +kernel
    have post : register? "../modules"
        ("import \x7b UserModule \x7d from '../modules/user/user.module';\n" ++
          "@Module(\x7b imports: [PostModule, UserModule] \x7d)\n") ⟨"Post"⟩ =
        some ⟨"import \x7b PostModule \x7d from '../modules/post/post.module';\n" ++
          "import \x7b UserModule \x7d from '../modules/user/user.module';\n" ++
          "@Module(\x7b imports: [PostModule, UserModule] \x7d)\n", true, false, true⟩ := by
      decide +kernel
    have again : register? "../modules"
        ("import \x7b PostModule \x7d from '../modules/post/post.module';\n" ++
          "import \x7b UserModule \x7d from '../modules/user/user.module';\n" ++
          "@Module(\x7b imports: [PostModule, UserModule] \x7d)\n") ⟨"USER"⟩ =
        some ⟨"import \x7b PostModule \x7d from '../modules/post/post.module';\n" ++
          "import \x7b UserModule \x7d from '../modules/user/user.module';\n" ++
          "@Module(\x7b imports: [PostModule, UserModule] \x7d)\n", false, false, true⟩ := by
      decide +kernel
    rw [registerAll?_cons user, registerAll?_cons post, registerAll?_cons again, registerAll?]
    rfl
  have apart : ∀ list ∈ ImportsList.find? "@Module(\x7b imports: [PostModule] \x7d)\n".toList,
      ∀ l ∈ lines (list.touched "@Module(\x7b imports: [PostModule] \x7d)\n".toList),
      ∀ name ∈ [(⟨"user"⟩ : EntityName), ⟨"Post"⟩, ⟨"USER"⟩],
        trim l ≠ (importLine "../modules" name).toList := by
    decide +kernel
  have old : ∀ list ∈ ImportsList.find? "@Module(\x7b imports: [PostModule] \x7d)\n".toList,
      list.entries.countP (isWord (bytesOf "PostModule")) = 1 := by
    decide +kernel
  obtain ⟨list, find⟩ := Option.isSome_iff_exists.mp
    (show (ImportsList.find? "@Module(\x7b imports: [PostModule] \x7d)\n".toList).isSome by
      decide +kernel)
  obtain ⟨top, entries, -⟩ := registerAll?_once (by simp) (by simp) (by simp) (by decide +kernel)
    (by decide +kernel) apart h
  obtain ⟨registry, list', e, find', -, once⟩ := entries list find _ (List.prefix_refl _)
  rw [h] at e
  cases e
  refine ⟨_, list', h, find', (top ⟨"USER"⟩ (by simp)).trans ?_, (once ⟨"Post"⟩ (by simp)).trans ?_⟩
  · decide +kernel
  · exact congrArg (max 1) (old list find)

end EntityForge.Registry

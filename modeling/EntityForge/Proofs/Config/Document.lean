import EntityForge.Config.Toml.Document
import EntityForge.Proofs.Config.Table
import Mathlib

/-!
# Tables of a document

However the tables of a document are made, no key is given twice in one of them. The statements are
taken up one after the other, each of which keeps this true of the tables as far as they are read.
-/

namespace EntityForge.Config.Toml

/-! ### Tables in the course of being read -/

/-- A node of which no open table has a key twice, with tidy values. -/
inductive Node.Tidy : Node → Prop where
  | value {v} :
    v.Tidy →
    Tidy (.value v)
  | table {origin entries} :
    (entries.map Prod.fst).Nodup →
    (∀ key node, (key, node) ∈ entries → Node.Tidy node) →
    Tidy (.table origin entries)
  | tables {last earlier} :
    (last.map Prod.fst).Nodup →
    (∀ key node, (key, node) ∈ last → Node.Tidy node) →
    Tidy (.tables last earlier)

/-- Below a tidy table all is tidy. -/
lemma Node.Tidy.of_table {origin : Origin} {b : Branch} (h : (Node.table origin b).Tidy) :
    Each Node.Tidy b := by
  cases h with
  | table distinct values => exact ⟨distinct, values⟩

/-- The last of several tidy tables holds tidy nodes. -/
lemma Node.Tidy.of_tables {last : Branch} {earlier : List Branch}
    (h : (Node.tables last earlier).Tidy) : Each Node.Tidy last := by
  cases h with
  | tables distinct values => exact ⟨distinct, values⟩

/-- A table is tidy if all nodes in it are. -/
lemma Node.tidy_table {origin : Origin} {b : Branch} (each : Each Node.Tidy b) :
    (Node.table origin b).Tidy :=
  .table each.distinct each.values

/-- Tables are tidy if all nodes in the last one are, since the earlier ones are closed. -/
lemma Node.tidy_tables {last : Branch} {earlier : List Branch} (each : Each Node.Tidy last) :
    (Node.tables last earlier).Tidy :=
  .tables each.distinct each.values

namespace Branch

variable {b b' : Branch} {key : String} {v : Value}

/-- What keeps the tables at the end of paths tidy keeps all of them tidy. -/
lemma each_reach? {dotted : Bool} {change : Origin → Branch → Option Branch}
    (keeps : ∀ origin b b', Each Node.Tidy b → change origin b = some b' → Each Node.Tidy b')
    {origin : Origin} {path : List String} (each : Each Node.Tidy b)
    (h : b.reach? dotted change origin path = some b') : Each Node.Tidy b' := by
  induction path generalizing origin b b' with
  | nil => exact keeps origin b b' each h
  | cons key path ih =>
    rw [reach?] at h
    cases found : b.lookup key with
    | none =>
      simp only [found, Option.bind_eq_bind, Option.bind_eq_some_iff] at h
      obtain ⟨inner, reached, put⟩ := h
      cases put
      exact each.put (Node.tidy_table (ih .nil reached)) key
    | some node =>
      have inside := each.lookup found
      cases node with
      | value v =>
        rw [found] at h
        cases h
      | table origin' inner =>
        simp only [found] at h
        split_ifs at h
        simp only [Option.bind_eq_bind, Option.bind_eq_some_iff] at h
        obtain ⟨inner', reached, put⟩ := h
        cases put
        exact each.put (Node.tidy_table (ih inside.of_table reached)) key
      | tables last earlier =>
        simp only [found, Option.bind_eq_bind, Option.bind_eq_some_iff] at h
        obtain ⟨last', reached, put⟩ := h
        cases put
        exact each.put (Node.tidy_tables (ih inside.of_tables reached)) key

/-- A tidy value can be added. -/
lemma each_add? (each : Each Node.Tidy b) (tidy : v.Tidy) (h : b.add? key v = some b') :
    Each Node.Tidy b' := by
  rw [add?] at h
  split at h
  · cases h
    exact each.put (.value tidy) key
  · cases h

/-- A tidy value can be assigned to a path. -/
lemma each_assign? {path : List String} (each : Each Node.Tidy b) (tidy : v.Tidy)
    (h : b.assign? path key v = some b') : Each Node.Tidy b' := by
  refine each_reach? (fun origin b b' each h => ?_) each h
  split_ifs at h
  exact each_add? each tidy h

/-- A table can be opened. -/
lemma each_open? (each : Each Node.Tidy b) (h : b.open? key = some b') : Each Node.Tidy b' := by
  rw [open?] at h
  split at h
  · cases h
    exact each.put (Node.tidy_table .nil) key
  · rename_i inner found
    cases h
    exact each.put (Node.tidy_table (each.lookup found).of_table) key
  · cases h

/-- A table can be appended. -/
lemma each_append? (each : Each Node.Tidy b) (h : b.append? key = some b') :
    Each Node.Tidy b' := by
  rw [append?] at h
  split at h
  · cases h
    exact each.put (Node.tidy_tables .nil) key
  · cases h
    exact each.put (Node.tidy_tables .nil) key
  · cases h

end Branch

/-! ### Statements -/

/-- Whether the value that a statement gives to a key, if any, is tidy. -/
def Statement.Tidy : Statement → Prop
  | .entry _ v => v.Tidy
  | _ => True

namespace Draft

/-- A statement that is taken up keeps the tables tidy. -/
lemma each_take? {draft draft' : Draft} {statement : Statement} (tidy : statement.Tidy)
    (each : Each Node.Tidy draft.root) (h : draft.take? statement = some draft') :
    Each Node.Tidy draft'.root := by
  cases statement with
  | nothing =>
    cases h
    exact each
  | header path =>
    simp only [take?, Option.bind_eq_bind, Option.bind_eq_some_iff] at h
    obtain ⟨⟨way, key⟩, -, root, reached, made⟩ := h
    cases made
    exact Branch.each_reach? (fun _ _ _ each h => Branch.each_open? each h) each reached
  | item path =>
    simp only [take?, Option.bind_eq_bind, Option.bind_eq_some_iff] at h
    obtain ⟨⟨way, key⟩, -, root, reached, made⟩ := h
    cases made
    exact Branch.each_reach? (fun _ _ _ each h => Branch.each_append? each h) each reached
  | entry path v =>
    simp only [take?, Option.bind_eq_bind, Option.bind_eq_some_iff] at h
    obtain ⟨⟨way, key⟩, -, root, reached, made⟩ := h
    cases made
    exact Branch.each_reach? (fun _ _ _ each h => Branch.each_assign? each tidy h) each reached

/-- What statements make of a draft is tidy if all values in them are. -/
lemma each_foldlM_take? {statements : List Statement} {draft draft' : Draft}
    (tidy : ∀ st ∈ statements, st.Tidy) (each : Each Node.Tidy draft.root)
    (h : statements.foldlM take? draft = some draft') : Each Node.Tidy draft'.root := by
  induction statements generalizing draft with
  | nil =>
    cases h
    exact each
  | cons st rest ih =>
    obtain ⟨first, others⟩ := List.forall_mem_cons.mp tidy
    rw [List.foldlM_cons, Option.bind_eq_bind, Option.bind_eq_some_iff] at h
    obtain ⟨next, taken, h⟩ := h
    exact ih others (each_take? first each taken) h

end Draft

/-! ### Results -/

/-- The result of a branch is that of its nodes, key by key. -/
lemma result_eq_map (b : Branch) :
    Branch.result b = b.map fun e => (e.1, Node.result e.2) := by
  induction b with
  | nil => rfl
  | cons e rest ih =>
    obtain ⟨key, node⟩ := e
    rw [Branch.result, List.map_cons, ih]

/-- The results of tidy nodes are tidy. -/
lemma Node.Tidy.result {node : Node} (tidy : node.Tidy) : node.result.Tidy := by
  induction tidy with
  | value tidy => exact tidy
  | @table origin entries distinct _ ih =>
    rw [Node.result, result_eq_map]
    refine .table (by rwa [List.map_map]) fun key v mem => ?_
    obtain ⟨⟨k, node⟩, here, same⟩ := List.mem_map.mp mem
    cases same
    exact ih k node here
  | tables => exact .other nofun

/-- Statements with tidy values make a tidy table. -/
lemma Draft.each_table? {statements : List Statement} {entries : Table}
    (tidy : ∀ st ∈ statements, st.Tidy) (h : table? statements = some entries) :
    Each Value.Tidy entries := by
  obtain ⟨draft, read, rfl⟩ := Option.map_eq_some_iff.mp h
  have root : (Node.table .header draft.root).Tidy :=
    Node.tidy_table (each_foldlM_take? tidy .nil read)
  exact Value.tidy_table.mp root.result

/-! ### Reading -/

section

variable {α : Type} {P : α → Prop} {read : List Char → Option (α × List Char)}
  (gives : Gives P read)

include gives

/-- A list holds nothing but what its items were read as. -/
lemma gives_divided? (mark : Char) : Gives (fun as => ∀ a ∈ as, P a) (divided? mark read) := by
  intro s as rest h
  fun_induction divided? mark read s generalizing as rest with
  | case1 => cases h
  | case2 s a found =>
    cases h
    simpa using gives _ _ _ found
  | case3 s a c more inside as' after divided found ih =>
    cases h
    exact List.forall_mem_cons.mpr ⟨gives _ _ _ found, ih _ _ divided⟩
  | case4 s a c more inside none_ found =>
    cases h
    simpa using gives _ _ _ found
  | case5 s a c more outside found =>
    cases h
    simpa using gives _ _ _ found

/-- All that is read up to the end of a text was read as an item. -/
lemma forall_mem_all? {s : List Char} {as : List α} (h : all? read s = some as) :
    ∀ a ∈ as, P a := by
  fun_induction all? read s generalizing as with
  | case1 =>
    cases h
    nofun
  | case2 => cases h
  | case3 s ne a rest found shorter ih =>
    obtain ⟨as, others, rfl⟩ := Option.map_eq_some_iff.mp h
    exact List.forall_mem_cons.mpr ⟨gives _ _ _ found, ih others⟩
  | case4 => cases h

end

/-- An integer has nothing in it that could be untidy. -/
lemma tidy_of_integer? {negative : Bool} {n : Nat} {v : Value} (h : integer? negative n = some v) :
    v.Tidy := by
  rw [integer?] at h
  split_ifs at h
  all_goals
    cases h
    exact .other nofun

/-- A number without its sign is tidy. -/
lemma gives_unsigned? (negative : Bool) : Gives Value.Tidy (unsigned? negative) := by
  intro s v rest h
  rw [unsigned?.eq_def] at h
  split at h
  · cases h
    exact .other nofun
  · cases h
    exact .other nofun
  · simp only [Option.bind_eq_bind, Option.bind_eq_some_iff] at h
    obtain ⟨⟨whole, s⟩, -, ⟨places, s⟩, -, ⟨power, s⟩, -, h⟩ := h
    split_ifs at h
    · simp only [Option.bind_eq_some_iff] at h
      obtain ⟨n, -, v, integer, made⟩ := h
      cases made
      exact tidy_of_integer? integer
    · simp only [Option.bind_eq_bind, Option.bind_eq_some_iff, float?] at h
      obtain ⟨v, ⟨n, -, -, -, decimal⟩, made⟩ := h
      cases made
      cases decimal
      exact .other nofun

/-- A number to a base of its own is tidy. -/
lemma gives_based? (base : Nat) : Gives Value.Tidy (based? base) := by
  intro s v rest h
  simp only [based?, Option.bind_eq_bind, Option.bind_eq_some_iff] at h
  obtain ⟨⟨digits, s⟩, -, n, -, v, integer, made⟩ := h
  cases made
  exact tidy_of_integer? integer

/-- A number is no table. -/
lemma gives_plainNumber? : Gives Value.Tidy plainNumber? := by
  intro s v rest h
  rw [plainNumber?.eq_def] at h
  split at h
  · exact gives_based? _ _ _ _ h
  · exact gives_based? _ _ _ _ h
  · exact gives_based? _ _ _ _ h
  · exact gives_unsigned? _ _ _ _ h
  · exact gives_unsigned? _ _ _ _ h
  · exact gives_unsigned? _ _ _ _ h

/-- A value that is neither a list nor a table is tidy. -/
lemma gives_scalar? : Gives Value.Tidy scalar? := by
  intro s v rest h
  rw [scalar?.eq_def] at h
  split at h
  · cases h
    exact .other nofun
  · cases h
    exact .other nofun
  · split at h
    · cases h
      exact .other nofun
    · rw [numeral?] at h
      split at h
      · cases h
        refine .table (List.nodup_singleton _) fun key v mem => ?_
        obtain rfl := Prod.mk.inj (List.mem_singleton.mp mem) |>.2
        exact .other nofun
      · exact gives_plainNumber? _ _ _ h

section

variable {read : List Char → Option (Value × List Char)} (gives : Gives Value.Tidy read)

include gives

/-- An assignment is tidy if its value is. -/
lemma gives_assignment? : Gives (fun e => e.2.Tidy) (assignment? read) := by
  intro s e rest h
  simp only [assignment?, Option.bind_eq_bind, Option.bind_eq_some_iff] at h
  obtain ⟨⟨path, after⟩, -, behind, -, ⟨v, more⟩, found, made⟩ := h
  cases made
  exact gives _ _ _ found

/-- A table between braces is tidy if the values in it are. -/
lemma gives_braces? : Gives Value.Tidy (braces? read) := by
  intro s v rest h
  rw [braces?] at h
  split at h
  · cases h
    exact Value.tidy_table.mpr .nil
  · simp only [Option.bind_eq_bind, Option.bind_eq_some_iff] at h
    obtain ⟨⟨assigned, after⟩, divided, behind, -, entries, made, result⟩ := h
    cases result
    refine Value.tidy_table.mpr (Draft.each_table? (fun st mem => ?_) made)
    obtain ⟨e, here, rfl⟩ := List.mem_map.mp mem
    exact gives_divided? (gives_assignment? gives) ',' _ _ _ divided e here

end

/-- A list is no table. -/
lemma gives_list? (read : List Char → Option (Value × List Char)) :
    Gives Value.Tidy (list? read) := by
  intro s v rest h
  have isList : ∃ items, v = .list items := by
    simp only [list?] at h
    split at h
    · exact ⟨_, (congrArg Prod.fst (Option.some.inj h)).symm⟩
    · split at h
      · exact ⟨_, (congrArg Prod.fst (Option.some.inj h)).symm⟩
      · split at h
        · exact ⟨_, (congrArg Prod.fst (Option.some.inj h)).symm⟩
        · cases h
      · cases h
  obtain ⟨items, rfl⟩ := isList
  exact .other nofun

/-- Values are tidy, however deep they go. -/
lemma gives_value? (depth : Nat) : Gives Value.Tidy (value? depth) := by
  induction depth with
  | zero => exact gives_scalar?
  | succ depth ih =>
    intro s v rest h
    rw [value?.eq_def] at h
    dsimp only at h
    split at h
    · exact gives_list? _ _ _ _ h
    · exact gives_braces? ih _ _ _ h
    · exact gives_scalar? _ _ _ h

/-- A statement assigns a tidy value, if it assigns any. -/
lemma gives_statement? : Gives Statement.Tidy statement? := by
  intro s st rest h
  rw [statement?] at h
  split at h
  · simp only [Option.bind_eq_bind, Option.bind_eq_some_iff] at h
    obtain ⟨⟨path, more⟩, -, after, -, made⟩ := h
    cases made
    trivial
  · simp only [Option.bind_eq_bind, Option.bind_eq_some_iff] at h
    obtain ⟨⟨path, more⟩, -, after, -, made⟩ := h
    cases made
    trivial
  · split at h
    · cases h
      trivial
    · simp only [Option.bind_eq_bind, Option.bind_eq_some_iff] at h
      obtain ⟨⟨⟨path, v⟩, more⟩, assigned, after, -, made⟩ := h
      cases made
      exact gives_assignment? (gives_value? deepest) _ _ _ assigned

/-- No key is given twice in a table of a document. -/
lemma each_ofText? {text : String} {entries : Table} (h : ofText? text = some entries) :
    Each Value.Tidy entries := by
  obtain ⟨statements, read, made⟩ := Option.bind_eq_some_iff.mp h
  exact Draft.each_table? (forall_mem_all? gives_statement? read) made

end EntityForge.Config.Toml

import EntityForge.Config.Value
import Mathlib

/-!
# Tables laid over each other

A table has each key once, and so have the tables in it: `Tidy` says so of a value. What is found
in a table that is laid over another one is then settled key by key: it is what the upper one says,
laid over what the lower one says.
-/

namespace EntityForge.Config

/-! ### Entries under a key -/

section

variable {α : Type} {key : String} {value : α} {entries : List (String × α)}

/-- The first entry of a key is the one that is found. -/
lemma lookup_cons_ite (k : String) (v : α) (rest : List (String × α)) (key : String) :
    ((k, v) :: rest).lookup key = if key = k then some v else rest.lookup key := by
  rw [List.lookup_cons]
  split_ifs with h
  · rw [h, beq_self_eq_true]
  · rw [beq_false_of_ne h]

/-- Under a key there is what was put there last. -/
lemma lookup_put (other : String) : (put key value entries).lookup other =
    if other = key then some value else entries.lookup other := by
  fun_induction put key value entries with
  | case1 => rw [lookup_cons_ite]
  | case2 v rest =>
    rw [lookup_cons_ite, lookup_cons_ite]
    split_ifs <;> rfl
  | case3 k v rest ne ih =>
    rw [lookup_cons_ite, lookup_cons_ite, ih]
    split_ifs with first here
    · exact absurd (first.symm.trans here) ne
    · rfl
    · rfl
    · rfl

/-- What is put under a key is all that is new. -/
lemma mem_put {e : String × α} (mem : e ∈ put key value entries) :
    e = (key, value) ∨ e ∈ entries := by
  fun_induction put key value entries with
  | case1 => exact .inl (List.mem_singleton.mp mem)
  | case2 v rest =>
    obtain rfl | mem := List.mem_cons.mp mem
    · exact .inl rfl
    · exact .inr (.tail _ mem)
  | case3 k v rest ne ih =>
    obtain rfl | mem := List.mem_cons.mp mem
    · exact .inr (.head _)
    · exact (ih mem).imp_right (.tail _)

/-- Putting a value under a key keeps keys apart. -/
lemma nodup_put (distinct : (entries.map Prod.fst).Nodup) :
    ((put key value entries).map Prod.fst).Nodup := by
  fun_induction put key value entries with
  | case1 => exact List.nodup_singleton _
  | case2 v rest => exact distinct
  | case3 k v rest ne ih =>
    obtain ⟨new, distinct⟩ := List.nodup_cons.mp distinct
    refine List.nodup_cons.mpr ⟨fun mem => ?_, ih distinct⟩
    obtain ⟨e, mem, same⟩ := List.mem_map.mp mem
    obtain rfl | mem := mem_put mem
    · exact ne same.symm
    · exact new (same ▸ List.mem_map_of_mem mem)

/-- Under a key that is not there nothing is found. -/
lemma lookup_eq_none (h : key ∉ entries.map Prod.fst) : entries.lookup key = none := by
  refine List.lookup_eq_none_iff.mpr fun e mem => bne_iff_ne.mpr ?_
  rintro rfl
  exact h (List.mem_map_of_mem mem)

end

/-! ### Keys that are given once -/

/-- Entries of which no two have the same key, with values that have a property. -/
structure Each {α : Type} (P : α → Prop) (entries : List (String × α)) : Prop where
  distinct : (entries.map Prod.fst).Nodup
  values : ∀ key v, (key, v) ∈ entries → P v

namespace Each

variable {α : Type} {P : α → Prop} {key : String} {value : α} {entries rest : List (String × α)}

/-- An empty table has no value without the property. -/
lemma nil : Each P [] :=
  ⟨List.nodup_nil, nofun⟩

/-- What is found in a table has the property. -/
lemma lookup (each : Each P entries) (h : entries.lookup key = some value) : P value := by
  obtain ⟨before, after, rfl, -⟩ := List.lookup_eq_some_iff.mp h
  exact each.values key value (List.mem_append_right _ (.head _))

/-- The first value of a table has the property. -/
lemma head (each : Each P ((key, value) :: rest)) : P value :=
  each.values key value (.head _)

/-- The other values of a table have the property. -/
lemma tail (each : Each P ((key, value) :: rest)) : Each P rest :=
  ⟨(List.nodup_cons.mp each.distinct).2, fun k v mem => each.values k v (.tail _ mem)⟩

/-- A value with the property can be put into a table. -/
lemma put (each : Each P entries) (h : P value) (key : String) :
    Each P (put key value entries) := by
  refine ⟨nodup_put each.distinct, fun k v mem => ?_⟩
  obtain same | mem := mem_put mem
  · cases same
    exact h
  · exact each.values k v mem

end Each

/-- A value of which no table has a key twice, outside lists. -/
inductive Value.Tidy : Value → Prop where
  | table {entries} :
    (entries.map Prod.fst).Nodup →
    (∀ key v, (key, v) ∈ entries → Value.Tidy v) →
    Tidy (.table entries)
  | other {v} :
    (∀ entries, v ≠ .table entries) →
    Tidy v

/-- A table is tidy if its keys are apart and its values are tidy. -/
lemma Value.tidy_table {entries : Table} :
    (Value.table entries).Tidy ↔ Each Value.Tidy entries := by
  constructor
  · intro tidy
    cases tidy with
    | table distinct values => exact ⟨distinct, values⟩
    | other no => exact absurd rfl (no entries)
  · exact fun each => .table each.distinct each.values

mutual

/-- Tidy values that are laid over each other make a tidy one. -/
lemma Value.Tidy.over {lower : Value} (tidy : lower.Tidy) :
    (upper : Value) → upper.Tidy → (lower.over upper).Tidy
  | .table upper, h => by
    cases lower with
    | table entries =>
      rw [Value.over]
      exact Value.tidy_table.mpr
        (Each.over (Value.tidy_table.mp tidy) upper (Value.tidy_table.mp h))
    | _ => exact h
  | .text _, h | .character _, h | .truth _, h | .natural _, h | .integer _, h | .decimal _, h
  | .list _, h => h

/-- Tidy tables that are laid over each other make a tidy one. -/
lemma Each.over {lower : Table} (tidy : Each Value.Tidy lower) :
    (upper : Table) → Each Value.Tidy upper → Each Value.Tidy (Table.over lower upper)
  | [], _ => tidy
  | (key, value) :: rest, h => by
    rw [Table.over]
    refine Each.over (tidy.put ?_ key) rest h.tail
    cases old : lower.lookup key with
    | none => exact h.head
    | some below => exact Value.Tidy.over (tidy.lookup old) value h.head

end

/-- Whether all that a reader reads has a property. -/
def Gives {α : Type} (P : α → Prop) (read : List Char → Option (α × List Char)) : Prop :=
  ∀ s a rest, read s = some (a, rest) → P a

/-! ### Tables by their keys -/

/-- What is found where one thing may lie over another. -/
def laid : Option Value → Option Value → Option Value
  | lower, none => lower
  | none, some upper => some upper
  | some lower, some upper => some (lower.over upper)

/-- Under each key lies what the upper table says over what the lower one says. -/
lemma lookup_over (lower : Table) {upper : Table} (distinct : (upper.map Prod.fst).Nodup)
    (key : String) :
    (Table.over lower upper).lookup key = laid (lower.lookup key) (upper.lookup key) := by
  induction upper generalizing lower with
  | nil =>
    rw [Table.over, List.lookup_nil]
    cases lower.lookup key <;> rfl
  | cons e rest ih =>
    obtain ⟨k, v⟩ := e
    obtain ⟨new, distinct⟩ := List.nodup_cons.mp distinct
    rw [Table.over, ih _ distinct, lookup_put, lookup_cons_ite]
    split_ifs with here
    · rw [here, lookup_eq_none new]
      cases lower.lookup k <;> rfl
    · rfl

end EntityForge.Config

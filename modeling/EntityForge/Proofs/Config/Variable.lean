import EntityForge.Config.Variable
import EntityForge.Proofs.Config.Table
import Mathlib

/-!
# Tables of an environment

The tables that a variable sets or holds have no key twice, and neither has what an environment sets
as a whole.
-/

namespace EntityForge.Config

namespace Variable

/-- What is read without quotation marks is no table. -/
lemma tidy_bare (s : List Char) : (bare s).Tidy := by
  simp only [bare]
  split_ifs
  · split
    · exact .other nofun
    · exact .other nofun
  · split
    · exact .other nofun
    · split_ifs <;> exact .other nofun
  · split
    · exact .other nofun
    · split_ifs <;> exact .other nofun

/-- The values of variables are tidy, however deep they go. -/
lemma gives_value? (fuel : Nat) : Gives Value.Tidy (value? fuel) ∧
    ∀ known, Each Value.Tidy known → Gives (Each Value.Tidy) (entries? fuel known) := by
  induction fuel with
  | zero =>
    constructor
    · intro s v rest h
      cases h
    · intro known each s entries rest h
      cases h
  | succ fuel ih =>
    obtain ⟨values, tables⟩ := ih
    constructor
    · intro s v rest h
      rw [value?] at h
      split at h
      · cases h
        exact .other nofun
      · cases h
        exact .other nofun
      · obtain ⟨p, found, made⟩ := Option.bind_eq_some_iff.mp h
        obtain ⟨⟨entries, more⟩, read, rfl⟩ := Option.map_eq_some_iff.mp found
        cases made
        exact Value.tidy_table.mpr (tables [] .nil _ _ _ read)
      · obtain ⟨p, found, made⟩ := Option.bind_eq_some_iff.mp h
        obtain ⟨q, -, rfl⟩ := Option.map_eq_some_iff.mp found
        cases made
        exact .other nofun
      · obtain ⟨p, found, made⟩ := Option.bind_eq_some_iff.mp h
        obtain ⟨q, -, rfl⟩ := Option.map_eq_some_iff.mp found
        cases made
        exact .other nofun
      · cases h
        exact .other nofun
      · cases h
      · cases h
        exact tidy_bare _
    · intro known each s entries rest h
      rw [entries?.eq_def] at h
      split at h
      · cases h
      · cases h
        exact each
      · rename_i same _
        cases same
        simp only [Option.bind_eq_bind, Option.bind_eq_some_iff] at h
        obtain ⟨⟨key, behind⟩, -, h⟩ := h
        split at h
        · obtain ⟨⟨v, after⟩, found, h⟩ := Option.bind_eq_some_iff.mp h
          have known := each.put (values _ _ _ found) key
          split at h
          · exact tables _ known _ _ _ h
          · cases h
            exact known
          · cases h
        · cases h

/-- What a variable says is tidy, be it a value or a bare text. -/
lemma tidy_read (text : String) : (read text).Tidy := by
  rw [read]
  split
  · rename_i v found
    exact (gives_value? _).1 _ _ _ found
  · exact .other nofun

/-- A tidy value can be put below any keys. -/
lemma each_nest {v : Value} (tidy : v.Tidy) (keys : List String) :
    Each Value.Tidy (nest v keys) := by
  fun_induction nest v keys with
  | case1 => exact .nil
  | case2 key => exact Each.nil.put tidy key
  | case3 key more _ ih => exact Each.nil.put (Value.tidy_table.mpr ih) key

end Variable

/-- No key is given twice in a table of an environment. -/
lemma Environment.each_table (environment : Environment) :
    Each Value.Tidy environment.table := by
  unfold Environment.table
  induction environment using List.reverseRecOn with
  | nil => exact .nil
  | append_singleton rest variable_ ih =>
    obtain ⟨name, text⟩ := variable_
    rw [List.foldl_append, List.foldl_cons, List.foldl_nil]
    dsimp only
    cases Variable.keys? name with
    | none => exact ih
    | some keys => exact ih.over _ (Variable.each_nest (Variable.tidy_read text) keys)

end EntityForge.Config

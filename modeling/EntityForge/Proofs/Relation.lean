import EntityForge.Relation
import Mathlib

/-!
# Fields in relations

A field that is recorded gets one place in the relations, under the model it refers to, and the
models stay different from each other. `insertAll_groups` says what relations hold after any
recordings: the models in the order in which they came up, each with its fields in their order.
-/

namespace EntityForge.Relations

/-- The fields that relations hold, each with the model it refers to. -/
def pairs (relations : Relations) : List (String × String) :=
  relations.toList.flatMap fun r => r.fields.map (r.model, ·)

/-- There are as many pairs as the relations have fields. -/
lemma length_pairs (relations : Relations) :
    relations.pairs.length = (relations.toList.map (·.fields.length)).sum := by
  simp [pairs, List.length_flatMap]

/-- Recording a field adds it once. -/
lemma pairs_insert (relations : Relations) (model field : String) :
    (relations.insert model field).pairs.Perm ((model, field) :: relations.pairs) := by
  obtain ⟨relations⟩ := relations
  simp only [insert, pairs]
  fun_induction insertInto model field relations with
  | case1 => exact .refl _
  | case2 r rest same =>
    rw [List.flatMap_cons, List.flatMap_cons, List.map_append, List.append_assoc, ← same]
    exact List.perm_middle
  | case3 r rest other ih =>
    rw [List.flatMap_cons, List.flatMap_cons]
    exact (ih.append_left _).trans List.perm_middle

/-- Recording a field adds its model if it is not there yet. -/
lemma models_insertInto (model field : String) (rs : List Relation) :
    (insertInto model field rs).map (·.model) =
      if model ∈ rs.map (·.model) then rs.map (·.model) else rs.map (·.model) ++ [model] := by
  fun_induction insertInto model field rs with
  | case1 => rfl
  | case2 r rest same => simp [same]
  | case3 r rest other ih =>
    simp only [List.map_cons, ih, List.mem_cons, Ne.symm other, false_or]
    split_ifs <;> rfl

/-- Recording a field adds it to those of its model and leaves those of other models alone. -/
lemma get?_insert (relations : Relations) (model field m : String) :
    (relations.insert model field).get? m =
      if m = model then some ((relations.get? model).getD [] ++ [field]) else relations.get? m := by
  obtain ⟨relations⟩ := relations
  simp only [insert, get?]
  fun_induction insertInto model field relations with
  | case1 =>
    split_ifs with same
    · simp [same]
    · simp [Ne.symm same]
  | case2 r rest here =>
    split_ifs with same
    · simp [same, here]
    · have other : r.model ≠ m := fun e => same (e.symm.trans here)
      simp [other]
  | case3 r rest other ih =>
    by_cases first : r.model = m
    · have same : m ≠ model := fun e => other (first.trans e)
      simp [first, same]
    · simpa [first, other] using ih

/-! ### Recording one field after the other -/

/-- The relations after fields have been recorded, each under the model it refers to. -/
def insertAll (inserted : List (String × String)) : Relations :=
  inserted.foldl (fun rs p => rs.insert p.1 p.2) empty

/-- The relations of fields come from recording those that refer to a model. -/
lemma ofFields_eq (fields : List Field) :
    ofFields fields =
      insertAll ((fields.filter (·.isRelation)).map fun f => (f.elementType, f.name)) := by
  rw [insertAll, List.foldl_map]
  rfl

section

variable (inserted : List (String × String))

/-- What is recorded last is inserted last. -/
lemma insertAll_concat (p : String × String) :
    insertAll (inserted ++ [p]) = (insertAll inserted).insert p.1 p.2 :=
  List.foldl_concat _ _ _ _

/-- The models are those that fields were recorded under. -/
lemma mem_models_insertAll {m : String} :
    m ∈ (insertAll inserted).models ↔ m ∈ inserted.map (·.1) := by
  induction inserted using List.reverseRecOn with
  | nil => rfl
  | append_singleton inserted p ih =>
    rw [insertAll_concat, models, insert, models_insertInto, List.map_append, List.mem_append, ← ih]
    split_ifs with there
    · refine (or_iff_left_of_imp fun mem => ?_).symm
      rwa [List.mem_singleton.mp mem]
    · exact List.mem_append

/-- One more model comes last if it is new. -/
lemma models_insertAll_concat (p : String × String) :
    (insertAll (inserted ++ [p])).models =
      if p.1 ∈ inserted.map (·.1) then (insertAll inserted).models
      else (insertAll inserted).models ++ [p.1] := by
  rw [insertAll_concat, models, insert, models_insertInto, ← models]
  simp only [mem_models_insertAll]

/-- The models stand in the order in which they came up. -/
lemma ordered_models_insertAll : (insertAll inserted).models.Pairwise
    fun m n => (inserted.map (·.1)).idxOf m < (inserted.map (·.1)).idxOf n := by
  induction inserted using List.reverseRecOn with
  | nil => exact .nil
  | append_singleton inserted p ih =>
    have known {m : String} (mem : m ∈ (insertAll inserted).models) :
        ((inserted ++ [p]).map (·.1)).idxOf m = (inserted.map (·.1)).idxOf m := by
      rw [List.map_append, List.idxOf_append_of_mem ((mem_models_insertAll inserted).mp mem)]
    have kept := ih.imp_of_mem fun {m n} hm hn lt => by rwa [← known hm, ← known hn] at lt
    rw [models_insertAll_concat]
    split_ifs with there
    · exact kept
    · refine List.pairwise_append.mpr ⟨kept, List.pairwise_singleton _ _, fun m hm n hn => ?_⟩
      -- What is new stands behind all that came up before.
      rw [known hm, List.mem_singleton.mp hn, List.map_append, List.idxOf_append_of_notMem there]
      have before := List.idxOf_lt_length_of_mem ((mem_models_insertAll inserted).mp hm)
      omega

/-- There is one relation for each model. -/
lemma nodup_models_insertAll : (insertAll inserted).models.Nodup := by
  refine (ordered_models_insertAll inserted).imp fun lt same => ?_
  rw [same] at lt
  exact lt.false

/-- A model has the fields that were recorded under it, in their order. -/
lemma get?_insertAll (m : String) : (insertAll inserted).get? m =
    if m ∈ inserted.map (·.1) then some ((inserted.filter (·.1 = m)).map (·.2)) else none := by
  induction inserted using List.reverseRecOn with
  | nil => rfl
  | append_singleton inserted p ih =>
    rw [insertAll_concat, get?_insert, List.map_append, List.filter_append]
    by_cases here : m = p.1
    · subst here
      rw [ih]
      by_cases there : p.1 ∈ inserted.map (·.1)
      · simp only [there]
        simp
      · have none : inserted.filter (·.1 = p.1) = [] := by
          refine List.filter_eq_nil_iff.mpr fun q mem => ?_
          simpa using fun same : q.1 = p.1 => there (same ▸ List.mem_map_of_mem mem)
        simp only [there, none]
        simp
    · have elsewhere : m ∉ [p].map (·.1) := by simpa using here
      have none : [p].filter (·.1 = m) = [] := by simpa using Ne.symm here
      rw [if_neg here, ih, none, List.append_nil]
      simp only [List.mem_append, elsewhere, or_false]

/-- Every field has one place. -/
lemma pairs_insertAll : (insertAll inserted).pairs.Perm inserted := by
  induction inserted using List.reverseRecOn with
  | nil => exact .refl _
  | append_singleton inserted p ih =>
    rw [insertAll_concat]
    exact (pairs_insert _ _ _).trans ((ih.cons p).trans (List.perm_append_singleton p inserted).symm)

/-- Relations group what is recorded, in whatever order it comes: there is one relation for each
model, in the order in which the models came up first, and it holds the fields that were recorded
under the model, in their order and as often. -/
theorem insertAll_groups :
    (insertAll inserted).models.Nodup ∧
    (∀ m, m ∈ (insertAll inserted).models ↔ m ∈ inserted.map (·.1)) ∧
    ((insertAll inserted).models.Pairwise fun m n =>
      (inserted.map (·.1)).idxOf m < (inserted.map (·.1)).idxOf n) ∧
    (∀ m, (insertAll inserted).get? m =
      if m ∈ inserted.map (·.1) then some ((inserted.filter (·.1 = m)).map (·.2)) else none) ∧
    ((insertAll inserted).toList.map (·.fields.length)).sum = inserted.length ∧
    (insertAll inserted).size = (inserted.map (·.1)).toFinset.card ∧
    ((insertAll inserted).isEmpty ↔ inserted = []) := by
  have nodup := nodup_models_insertAll inserted
  have same : (insertAll inserted).models.toFinset = (inserted.map (·.1)).toFinset := by
    ext m
    rw [List.mem_toFinset, List.mem_toFinset, mem_models_insertAll]
  have size : (insertAll inserted).size = (inserted.map (·.1)).toFinset.card := by
    rw [← same, List.toFinset_card_of_nodup nodup, models, List.length_map, Relations.size]
  refine ⟨nodup, fun m => mem_models_insertAll inserted, ordered_models_insertAll inserted,
    get?_insertAll inserted, ?_, size, ?_⟩
  · rw [← length_pairs, (pairs_insertAll inserted).length_eq]
  · rw [isEmpty, List.isEmpty_iff_length_eq_zero, ← Relations.size, size, Finset.card_eq_zero,
      List.toFinset_eq_empty_iff, List.map_eq_nil_iff]

example : insertAll [("User", "author"), ("Tag", "tags"), ("User", "reviewer")] =
    ⟨[⟨"User", ["author", "reviewer"]⟩, ⟨"Tag", ["tags"]⟩]⟩ := by
  decide

end

/-! ### Relations of fields -/

/-- The relations of fields hold each field that refers to a model, once and under its type. -/
lemma pairs_ofFields (fields : List Field) :
    (ofFields fields).pairs.Perm
      ((fields.filter (·.isRelation)).map fun f => (f.elementType, f.name)) :=
  ofFields_eq fields ▸ pairs_insertAll _

/-- The relations of fields are with the models that fields refer to. -/
lemma mem_models_ofFields {fields : List Field} {m : String} :
    m ∈ (ofFields fields).models ↔ ∃ field ∈ fields, field.isRelation ∧ field.elementType = m := by
  rw [ofFields_eq, mem_models_insertAll, List.map_map]
  simp [and_assoc]

/-- The relations of fields are with different models. -/
lemma nodup_models_ofFields (fields : List Field) : (ofFields fields).models.Nodup :=
  ofFields_eq fields ▸ nodup_models_insertAll _

end EntityForge.Relations

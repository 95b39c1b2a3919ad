import EntityForge.Declaration
import EntityForge.Proofs.Field.Declaration
import EntityForge.Proofs.Relation
import EntityForge.Proofs.Text.Case
import Mathlib

/-!
# The place of a field

A body is read twice, once for the relations of its model and once for the members of each class, and
each reading has a test of its own. The two tests share the fields out: what refers to a model is
recorded under it, and all else becomes a member, except for the field that identifies a record.
`Marks` says what the tests look at, and `Becomes` what a member says of its field.
-/

namespace EntityForge.Field

open Text

/-- The letters of `id` are ASCII, and none of them is the `k` that the Kelvin sign becomes. -/
private lemma plain_id : ∀ d ∈ "id".toList, d.toNat < 0x80 ∧ d ≠ 'k' := by
  simp

/-- The field that identifies a record is known by the lower-case form of its name. -/
lemma isId_iff (field : Field) :
    field.isId = true ↔ lowerCase field.name.toList = "id".toList := by
  rw [isId, beq_iff_eq, lowerCase, lowerAfter_eq_iff plain_id]

/-- A field that becomes a member refers to no model, and `id` is not its name in any case. -/
lemma isDeclared_eq (field : Field) :
    Declaration.isDeclared field =
      (!(field.isList || field.isAnnotated) && lowerCase field.name.toList != "id".toList) := by
  have same : field.isId = (lowerCase field.name.toList == "id".toList) := by
    rw [Bool.eq_iff_iff, isId_iff, beq_iff_eq]
  rw [Declaration.isDeclared, same, bne, Bool.not_or, Bool.and_comm (!field.isAnnotated)]

/-- The members of a class come from the fields that refer to no model and are not named `id`. -/
lemma declarations_eq (purpose : Purpose) (keepCase : Bool) (body : String) :
    Declaration.ofBody purpose keepCase body =
      ((ofBody body).filter fun f =>
        !(f.isList || f.isAnnotated) && lowerCase f.name.toList != "id".toList).map
          (Declaration.ofField purpose keepCase) := by
  rw [Declaration.ofBody, funext isDeclared_eq]

/-- The lower-case form of a name is `id` if that of its lower-case form is. -/
lemma lowerCase_lowerCase {s : List Char} (h : lowerCase (lowerCase s) = "id".toList) :
    lowerCase s = "id".toList := by
  have spelled := (lowerAfter_eq_iff plain_id).mp h
  rwa [lowerCase, map_toLower_lowerAfter] at spelled

/-! ### Fields and their members -/

/-- The scalars of a schema and what they are in TypeScript. -/
def scalars : List (String × String) :=
  [("Int", "number"), ("Float", "number"), ("Decimal", "number"), ("Boolean", "boolean"),
    ("String", "string"), ("DateTime", "Date"), ("Json", "any"), ("Bytes", "Buffer"),
    ("BigInt", "bigint")]

/-- A scalar is looked up in the table, and any other name stands for itself. -/
lemma inTypeScript_eq (name : String) :
    TypeName.inTypeScript name = (scalars.lookup name).getD name := by
  unfold TypeName.inTypeScript
  split
  case h_10 =>
    -- The name differs from the scalar of each row.
    have other : scalars.lookup name = none := by
      simp only [scalars, List.lookup_eq_none_iff, List.forall_mem_cons, bne_iff_ne]
      and_intros
      all_goals first | assumption | exact List.forall_mem_nil _
    rw [other, Option.getD_none]
  all_goals rfl

/-- What is read off a field as it is declared: it is a list if its type has the list mark, annotated
if an attribute begins with the annotation of relations, and its bare type is what stands before the
optional mark, without white space and list marks at the end. -/
structure Marks (field : Field) : Prop where
  list : field.isList = true ↔ "[]".toList <:+: field.type.toList
  annotated : field.isAnnotated = true ↔ ∃ a ∈ field.attributes, "@relation".toList <+: a.toList
  bare : ∃ marks, trim (field.type.toList.takeWhile (· != '?')) =
    field.elementType.toList ++ (List.replicate marks "[]".toList).flatten
  last : ¬ "[]".toList <:+ field.elementType.toList

/-- The marks of a field are read off its declaration. -/
lemma marks (field : Field) : field.Marks where
  list := contains_iff
  annotated := by simp [isAnnotated]
  bare := toList_plainType field ▸ (exists_elementType field).1
  last := (exists_elementType field).2

/-- What a member says of the field that it was. Its name is that of the field, in lower case unless
case is to be kept. Its type is what stands before the optional mark, a scalar being spelled as in
TypeScript, and it may be missing if there is the mark. In a class that checks input there are
decorators for the mark and for dates, in the class of the entity there are none. -/
structure Becomes (purpose : Purpose) (keepCase : Bool) (field : Field) (d : Declaration) : Prop where
  name : d.name.toList = if keepCase then field.name.toList else lowerCase field.name.toList
  type : d.type =
    let plain := String.ofList (trim (field.type.toList.takeWhile (· != '?')))
    (scalars.lookup plain).getD plain
  optional : d.optional = true ↔ '?' ∈ field.type.toList
  checked : purpose ≠ .entity → d.decorators =
    (if '?' ∈ field.type.toList then "@IsOptional()" else "@IsNotEmpty()") ::
      if trim (field.type.toList.takeWhile (· != '?')) = "DateTime".toList then ["@IsDate()"] else []
  unchecked : purpose = .entity → d.decorators = []

/-- A field becomes the member that it is declared as. -/
lemma becomes_ofField (purpose : Purpose) (keepCase : Bool) (field : Field) :
    field.Becomes purpose keepCase (Declaration.ofField purpose keepCase field) where
  name := by
    cases keepCase with
    | true => rfl
    | false => exact String.toList_ofList
  type := by
    have spelled : (Declaration.ofField purpose keepCase field).type =
        (scalars.lookup field.plainType).getD field.plainType := inTypeScript_eq field.plainType
    rw [spelled, ← toList_plainType, String.ofList_toList]
  optional := List.contains_iff_mem
  checked := by
    intro checks
    have dto : purpose.isDto = true := by
      cases purpose with
      | create => rfl
      | update => rfl
      | entity => exact absurd rfl checks
    have date : field.plainType = "DateTime" ↔
        trim (field.type.toList.takeWhile (· != '?')) = "DateTime".toList := by
      rw [← toList_plainType, String.toList_inj]
    have mark : field.isOptional = true ↔ '?' ∈ field.type.toList := List.contains_iff_mem
    rw [Declaration.ofField, if_pos dto, Declaration.checks]
    simp only [date, mark]
  unchecked := by
    rintro rfl
    rfl

/-- The members of a class are what the fields that have no other place become, in their order. -/
lemma forall₂_becomes (purpose : Purpose) (keepCase : Bool) (body : String) :
    List.Forall₂ (Becomes purpose keepCase)
      ((ofBody body).filter fun f =>
        !(f.isList || f.isAnnotated) && lowerCase f.name.toList != "id".toList)
      (Declaration.ofBody purpose keepCase body) := by
  rw [declarations_eq, List.forall₂_map_right_iff, List.forall₂_same]
  exact fun field _ => becomes_ofField purpose keepCase field

/-- No member has the name `id`, in whatever case. -/
lemma name_ne_id {purpose : Purpose} {keepCase : Bool} {body : String} {d : Declaration}
    (mem : d ∈ Declaration.ofBody purpose keepCase body) :
    lowerCase d.name.toList ≠ "id".toList := by
  rw [declarations_eq] at mem
  obtain ⟨field, inside, rfl⟩ := List.mem_map.mp mem
  have other : lowerCase field.name.toList ≠ "id".toList := by
    simpa using (Bool.and_eq_true_iff.mp (List.mem_filter.mp inside).2).2
  rw [(becomes_ofField purpose keepCase field).name]
  split_ifs
  · exact other
  · exact mt lowerCase_lowerCase other

/-! ### The place of each field -/

/-- Three tests of which each element passes one divide a list. -/
private lemma length_division {α : Type} (p q : α → Bool) (xs : List α) :
    (xs.filter fun x => !p x && !q x).length + (xs.filter p).length +
      xs.countP (fun x => !p x && q x) = xs.length := by
  induction xs with
  | nil => rfl
  | cons x xs ih =>
    -- The first element is counted where it passes: `p`, `q` alone or neither.
    cases hp : p x <;> cases hq : q x <;>
      simp only [List.filter_cons, List.countP_cons, List.length_cons, hp, hq, Bool.not_true,
        Bool.not_false, Bool.and_true, Bool.and_false, if_true, if_false, Bool.false_eq_true] <;>
      omega

/-- Each field of a body has one place. The relations hold the lists and the annotated fields, each
once and under its bare type. The members of a class are what the other fields become, in their
order, but for those named `id` in some case, and no member has such a name. So the members, the
fields in relations and the remaining fields named `id` are as many as the fields. The classes have
the same members, except that those of the entity have no decorators. -/
theorem one_place (body : String) :
    (∀ f ∈ ofBody body, f.Marks) ∧
    (Relations.ofBody body).models.Nodup ∧
    (Relations.ofBody body).pairs.Perm
      (((ofBody body).filter fun f => f.isList || f.isAnnotated).map
        fun f => (f.elementType, f.name)) ∧
    (∀ purpose keepCase, List.Forall₂ (Becomes purpose keepCase)
      ((ofBody body).filter fun f =>
        !(f.isList || f.isAnnotated) && lowerCase f.name.toList != "id".toList)
      (Declaration.ofBody purpose keepCase body)) ∧
    (∀ purpose keepCase, (Declaration.ofBody purpose keepCase body).length +
      ((Relations.ofBody body).toList.map (·.fields.length)).sum +
      (ofBody body).countP (fun f =>
        !(f.isList || f.isAnnotated) && lowerCase f.name.toList == "id".toList) =
          (ofBody body).length) ∧
    (∀ purpose keepCase, ∀ d ∈ Declaration.ofBody purpose keepCase body,
      lowerCase d.name.toList ≠ "id".toList) ∧
    (∀ purpose other keepCase,
      (Declaration.ofBody purpose keepCase body).map (fun d => (d.name, d.type, d.optional)) =
        (Declaration.ofBody other keepCase body).map fun d => (d.name, d.type, d.optional)) ∧
    (∀ keepCase, Declaration.ofBody .create keepCase body =
      Declaration.ofBody .update keepCase body) ∧
    ∀ keepCase, ∀ d ∈ Declaration.ofBody .entity keepCase body, d.decorators = [] := by
  have recorded : (Relations.ofBody body).pairs.Perm
      (((ofBody body).filter fun f => f.isList || f.isAnnotated).map
        fun f => (f.elementType, f.name)) := by
    have same : (fun f : Field => f.isList || f.isAnnotated) = isRelation :=
      funext fun f => Bool.or_comm _ _
    rw [same]
    exact Relations.pairs_ofFields (ofBody body)
  refine ⟨fun f _ => f.marks, Relations.nodup_models_ofFields _, recorded,
    fun purpose keepCase => forall₂_becomes purpose keepCase body, fun purpose keepCase => ?_,
    fun _ _ _ mem => name_ne_id mem, fun purpose other keepCase => ?_, fun keepCase => rfl,
    fun keepCase d mem => ?_⟩
  · rw [declarations_eq, ← Relations.length_pairs, recorded.length_eq, List.length_map,
      List.length_map]
    exact length_division (fun f : Field => f.isList || f.isAnnotated)
      (fun f => lowerCase f.name.toList == "id".toList) (ofBody body)
  · rw [Declaration.ofBody, Declaration.ofBody, List.map_map, List.map_map]
    rfl
  · obtain ⟨field, -, rfl⟩ := List.mem_map.mp mem
    exact (becomes_ofField .entity keepCase field).unchecked rfl

end EntityForge.Field

import EntityForge.Proofs.Artifact
import EntityForge.Proofs.Registry.Idempotence
import EntityForge.Run.Machine
import Mathlib

/-!
# Spellings of one name

An entity may be asked for in any case. All that is generated for it is named after the title and the
slug, and on ASCII names these two and the look-up in the schema tell the same names apart: those
that differ in more than case. `listed_twice` is a name that is no identifier, which a registry does
not recognize.
-/

namespace EntityForge

open Text

/-- Whether a text is made of ASCII characters. -/
def IsAscii (s : String) : Prop :=
  ∀ c ∈ s.toList, c.toNat < 0x80

/-- Whether a text is ASCII can be checked character by character. -/
instance (s : String) : Decidable (IsAscii s) :=
  @List.decidableBAll Char (fun c => c.toNat < 0x80) inferInstance s.toList

/-- Whether two texts differ at most in the case of their ASCII letters. -/
def SameLetters (s t : String) : Prop :=
  s.toList.map Char.toLower = t.toList.map Char.toLower

/-- Whether two texts have the same letters can be checked by comparing them. -/
instance (s t : String) : Decidable (SameLetters s t) :=
  inferInstanceAs (Decidable (s.toList.map Char.toLower = t.toList.map Char.toLower))

/-! ### Titles and slugs -/

section

variable {s t : String}

/-- The slug of an ASCII name is lowered letter by letter. -/
lemma toList_slug_of_ascii (ascii : IsAscii s) :
    (EntityName.mk s).slug.toList = s.toList.map Char.toLower := by
  rw [EntityName.slug, String.toList_ofList]
  exact lowerAfter_of_ascii ascii

/-- The title of an ASCII name is as long as the name. -/
lemma length_title_of_ascii (ascii : IsAscii s) :
    (EntityName.mk s).title.toList.length = s.toList.length := by
  rw [EntityName.title, String.toList_ofList]
  cases split : s.toList with
  | nil => rfl
  | cons c rest =>
    rw [capitalize_of_ascii (split ▸ ascii), List.length_cons, List.length_map, List.length_cons]

variable (hs : IsAscii s) (ht : IsAscii t)

include hs ht

/-- ASCII names have the same slug if they have the same letters. -/
lemma slug_eq_iff : (EntityName.mk s).slug = (EntityName.mk t).slug ↔ SameLetters s t := by
  rw [← String.toList_inj, toList_slug_of_ascii hs, toList_slug_of_ascii ht]
  rfl

/-- ASCII names have the same title if they have the same letters. -/
lemma title_eq_iff : (EntityName.mk s).title = (EntityName.mk t).title ↔ SameLetters s t := by
  rw [EntityName.title, EntityName.title, String.ofList_inj]
  exact capitalize_eq_iff hs ht

/-- ASCII names have the same module if they have the same letters. -/
lemma module_eq_iff : (EntityName.mk s).module = (EntityName.mk t).module ↔ SameLetters s t := by
  rw [EntityName.module, EntityName.module, String.append_left_inj, title_eq_iff hs ht]

/-- The look-up of a model does not care for case either. -/
lemma lowerCase_eq_of_sameLetters (same : SameLetters s t) :
    lowerCase s.toList = lowerCase t.toList := by
  rw [lowerCase, lowerCase, lowerAfter_of_ascii hs, lowerAfter_of_ascii ht]
  exact same

/-- An import line tells what it imports: titles and slugs are as long as the names they come from, so
lines that are the same have titles of one length in the same place. -/
lemma importLine_eq_iff (root : String) :
    Registry.importLine root ⟨s⟩ = Registry.importLine root ⟨t⟩ ↔ SameLetters s t := by
  refine ⟨fun line => ?_, fun same => ?_⟩
  · have chars := congrArg String.toList line
    rw [Registry.toList_importLine, Registry.toList_importLine, Registry.toList_module,
      Registry.toList_module, Registry.modulePath, Registry.modulePath] at chars
    simp only [List.append_assoc, List.append_cancel_left_eq] at chars
    have size := congrArg List.length chars
    simp only [List.length_append, List.length_cons, toList_slug_of_ascii hs,
      toList_slug_of_ascii ht, List.length_map, length_title_of_ascii hs,
      length_title_of_ascii ht] at size
    obtain ⟨title, -⟩ := List.append_inj chars (by
      rw [length_title_of_ascii hs, length_title_of_ascii ht]
      omega)
    exact (title_eq_iff hs ht).mp (String.toList_inj.mp title)
  · rw [Registry.importLine, Registry.importLine, (module_eq_iff hs ht).mpr same,
      (slug_eq_iff hs ht).mpr same]

end

/-! ### What depends on the name -/

/-- A model is looked up by the lower-case form of its name. -/
lemma Schema.body?_congr {s t : String} (same : lowerCase s.toList = lowerCase t.toList)
    (schema : String) : body? schema s = body? schema t := by
  rw [body?, body?, same]

/-- The artifacts of an entity depend on the title and the slug of its name and on its body. -/
lemma Entity.artifacts_congr {name name' : EntityName} (title : name.title = name'.title)
    (slug : name.slug = name'.slug) (body : String) (settings : Settings) :
    Entity.artifacts ⟨name, body⟩ settings = Entity.artifacts ⟨name', body⟩ settings := by
  have context : Entity.context ⟨name, body⟩ settings = Entity.context ⟨name', body⟩ settings := by
    simp only [Entity.context, EntityName.createDto, EntityName.updateDto, EntityName.service,
      EntityName.controller, EntityName.module, title, slug]
    rfl
  have artifact (template : Template) (stem description : String) :
      Entity.artifact ⟨name, body⟩ settings template stem description =
        Entity.artifact ⟨name', body⟩ settings template stem description := by
    simp only [Entity.artifact, Entity.filePath, context, title, slug]
  simp only [Entity.artifacts, artifact, slug]

/-- The registration of an entity depends on the title and the slug of its name. -/
lemma Registry.register?_congr {name name' : EntityName} (title : name.title = name'.title)
    (slug : name.slug = name'.slug) (root document : String) :
    register? root document name = register? root document name' := by
  have module : name.module = name'.module := by rw [EntityName.module, EntityName.module, title]
  have line : importLine root name = importLine root name' := by
    rw [importLine, importLine, module, slug]
  rw [register?, register?, line, module]

/-! ### Asking in another case -/

open Registry (register? importLine IsIdentifier)
open Run.Machine (perform)

/-- On ASCII names it makes no difference in which case one asks for an entity. Either the schema has
no such model for both spellings, and a turn ends before it has done anything, or all files are the
same; and the registry becomes the same. So a name that has been registered under one spelling is not
registered again under another one. Names that differ in more than case have slugs, modules and import
lines of their own. -/
theorem output_iff_sameLetters {a b : String} (ha : IsAscii a) (hb : IsAscii b) :
    (SameLetters a b →
      (∀ schema settings,
        (Entity.find? schema a = none ∧ Entity.find? schema b = none ∧
          ∀ (options : Run.Options) (s : Run.Surroundings) (m : Run.Machine),
            perform s (options.generate schema a).run m = (.error (.modelNotFound a), m) ∧
              perform s (options.generate schema b).run m = (.error (.modelNotFound b), m)) ∨
        ∃ entity entity' artifacts,
          Entity.find? schema a = some entity ∧ Entity.find? schema b = some entity' ∧
          entity.artifacts settings = .ok artifacts ∧ entity'.artifacts settings = .ok artifacts) ∧
      (∀ root document, register? root document ⟨a⟩ = register? root document ⟨b⟩) ∧
      ∀ root document r, '\n' ∉ root.toList → '\'' ∉ root.toList → ']' ∉ root.toList →
        ¬ "//".toList <:+: root.toList → ¬ "/*".toList <:+: root.toList →
        IsIdentifier (EntityName.mk a).title → IsIdentifier (EntityName.mk a).slug → a ≠ "" →
        register? root document ⟨a⟩ = some r →
        register? root r.document ⟨b⟩ = some ⟨r.document, false, false, r.listFound⟩) ∧
    ((EntityName.mk a).slug = (EntityName.mk b).slug ↔ SameLetters a b) ∧
    ((EntityName.mk a).module = (EntityName.mk b).module ↔ SameLetters a b) ∧
    ∀ root, importLine root ⟨a⟩ = importLine root ⟨b⟩ ↔ SameLetters a b := by
  refine ⟨fun same => ?_, slug_eq_iff ha hb, module_eq_iff ha hb, importLine_eq_iff ha hb⟩
  have title := (title_eq_iff ha hb).mpr same
  have slug := (slug_eq_iff ha hb).mpr same
  have registered := Registry.register?_congr title slug
  refine ⟨fun schema settings => ?_, registered, ?_⟩
  · have found := Schema.body?_congr (lowerCase_eq_of_sameLetters ha hb same) schema
    cases declared : Schema.body? schema a with
    | none =>
      have missing {name : String} (none_ : Schema.body? schema name = none) :
          Entity.find? schema name = none := by rw [Entity.find?, none_, Option.map_none]
      have here := missing declared
      have there := missing (found.symm.trans declared)
      refine .inl ⟨here, there, fun options s m => ⟨?_, ?_⟩⟩
      · rw [Run.Options.generate, here]
        rfl
      · rw [Run.Options.generate, there]
        rfl
    | some body =>
      obtain ⟨_, _, _, _, _, -, -, rendered, -⟩ := Entity.exists_artifacts ⟨⟨a⟩, body⟩ settings
      refine .inr ⟨⟨⟨a⟩, body⟩, ⟨⟨b⟩, body⟩, _, ?_, ?_, rendered, ?_⟩
      · rw [Entity.find?, declared, Option.map_some]
      · rw [Entity.find?, ← found, declared, Option.map_some]
      · rw [← Entity.artifacts_congr title slug]
        exact rendered
  · intro root document r newline quote bracket lineMark blockMark identifier identifier' ne done
    obtain ⟨line, list, word⟩ := Registry.present_of_register? newline quote bracket lineMark
      blockMark identifier identifier' ne done
    rw [← registered, Registry.register?_of_present line word, list]

/-- An entity is asked for in small letters and then in capitals. -/
theorem output_iff_sameLetters_user :
    IsAscii "user" ∧ IsAscii "USER" ∧ SameLetters "user" "USER" ∧
      ∃ r, register? "../modules" "imports: [A]\n" ⟨"user"⟩ = some r ∧ r.isChange = true ∧
        register? "../modules" r.document ⟨"USER"⟩ = some ⟨r.document, false, false, true⟩ := by
  have small : IsAscii "user" := by decide +kernel
  have capital : IsAscii "USER" := by decide +kernel
  have same : SameLetters "user" "USER" := by decide +kernel
  have first : register? "../modules" "imports: [A]\n" ⟨"user"⟩ =
      some ⟨"import \x7b UserModule \x7d from '../modules/user/user.module';\n" ++
        "imports: [A, UserModule]\n", true, true, true⟩ := by
    decide +kernel
  obtain ⟨-, -, again⟩ := (output_iff_sameLetters small capital).1 same
  exact ⟨small, capital, same, _, first, rfl, again _ _ _ (by simp) (by simp) (by simp)
    (by decide +kernel) (by decide +kernel) (by decide +kernel) (by decide +kernel) (by decide) first⟩

/-- A name that is no identifier is put into the list each time it is asked for, because the list is
searched for a word. -/
theorem listed_twice :
    ¬ ∀ (root document a b : String) (r : Registry.Registration),
      IsAscii a → IsAscii b → SameLetters a b → register? root document ⟨a⟩ = some r →
      register? root r.document ⟨b⟩ = some ⟨r.document, false, false, r.listFound⟩ := by
  intro all
  have first : register? "../modules" "imports: [A]\n" ⟨"a-b"⟩ =
      some ⟨"import \x7b A-bModule \x7d from '../modules/a-b/a-b.module';\n" ++
        "imports: [A, A-bModule]\n", true, true, true⟩ := by
    decide +kernel
  have second : register? "../modules"
      ("import \x7b A-bModule \x7d from '../modules/a-b/a-b.module';\n" ++
        "imports: [A, A-bModule]\n") ⟨"A-B"⟩ =
      some ⟨"import \x7b A-bModule \x7d from '../modules/a-b/a-b.module';\n" ++
        "imports: [A, A-bModule, A-bModule]\n", false, true, true⟩ := by
    decide +kernel
  have same := all _ _ "a-b" "A-B" _ (by decide +kernel) (by decide +kernel) (by decide +kernel) first
  rw [second] at same
  simp at same

end EntityForge

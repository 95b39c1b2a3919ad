import EntityForge.Artifact
import Mathlib

/-!
# Looking up models

Models are listed in the order of the schema and looked up by their names without regard to case. A
name that is listed is found, and it stands for the first model with that name.
-/

namespace EntityForge

open Text

namespace Schema

variable {schema requested : String} {front back : List Model} {model : Model}

/-- The first model whose name differs at most in case is the one that is looked up. -/
lemma body?_of_append (split : models schema = front ++ model :: back)
    (same : lowerCase model.name.toList = lowerCase requested.toList)
    (first : ∀ earlier ∈ front, lowerCase earlier.name.toList ≠ lowerCase requested.toList) :
    body? schema requested = some (String.ofList (trim model.body.toList)) := by
  have skipped : front.find? (fun m => lowerCase m.name.toList == lowerCase requested.toList) =
      none :=
    List.find?_eq_none.mpr fun earlier mem => by simpa using first earlier mem
  have here : (lowerCase model.name.toList == lowerCase requested.toList) = true :=
    beq_iff_eq.mpr same
  rw [body?, split, List.find?_append, skipped, Option.none_or, List.find?_cons, here]
  rfl

/-- A model is found under its own name. -/
lemma isSome_body? (mem : model ∈ models schema) : (body? schema model.name).isSome := by
  rw [body?, Option.isSome_map, List.find?_isSome]
  exact ⟨model, mem, beq_self_eq_true _⟩

end Schema

/-- Every model of a schema is found under its own name. -/
lemma Entity.isSome_find? {schema : String} {model : Schema.Model}
    (mem : model ∈ Schema.models schema) : (Entity.find? schema model.name).isSome := by
  rw [find?, Option.isSome_map]
  exact Schema.isSome_body? mem

end EntityForge

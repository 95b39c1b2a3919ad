import EntityForge.Config.Layer
import EntityForge.Proofs.Config.Setting
import Mathlib

/-!
# Settings of several sources

Tables that lie over each other say about a setting what the topmost one says of those that say
anything about it. This holds for each setting on its own: a table that says one thing about a group
hides nothing else that the tables below it say about the group.
-/

namespace EntityForge.Config

/-! ### Two values -/

section

variable {kind : Kind} {path : List String} {lower upper : Value}

/-- A value that lies over another one fits a path if both do, and what it does not say at the end
of the path is what the other one says. -/
lemma Value.fits_over (below : lower.fits kind path) (above : upper.fits kind path)
    (tidy : upper.Tidy) : (lower.over upper).fits kind path ∧
      (lower.over upper).atPath? path = (upper.atPath? path).or (lower.atPath? path) := by
  induction path generalizing lower upper with
  | nil =>
    obtain ⟨datum, holds⟩ := Option.isSome_iff_exists.mp above
    rw [over_of_datum? holds]
    exact ⟨above, rfl⟩
  | cons key path ih =>
    obtain ⟨entries, rfl, lowers⟩ := exists_of_fits below
    obtain ⟨more, rfl, uppers⟩ := exists_of_fits above
    have each := Value.tidy_table.mp tidy
    have found := lookup_over entries each.distinct key
    rw [Value.over, fits_table, atPath?, atPath?, atPath?, part?, part?, part?, found]
    cases there : more.lookup key with
    | none =>
      rw [laid, Option.bind_none, Option.none_or]
      exact ⟨lowers, rfl⟩
    | some v =>
      cases here : entries.lookup key with
      | none =>
        rw [laid, Option.bind_none, Option.or_none]
        exact ⟨fun w e => Option.some.inj e ▸ uppers v there, rfl⟩
      | some old =>
        obtain ⟨fits, same⟩ := ih (lowers old here) (uppers v there) (each.lookup there)
        rw [laid, Option.bind_some, Option.bind_some, Option.bind_some]
        exact ⟨fun w e => Option.some.inj e ▸ fits, same⟩

end

/-! ### Many tables -/

/-- What the first of some tables to say anything about a setting says. -/
def said? (sources : List Table) (setting : Setting) : Option Value :=
  sources.findSome? fun entries => (Value.table entries).atPath? setting.path

/-- Whether a configuration holds what the first of some tables says about each setting, and the
default where none of them says anything. -/
def Follows (config : Config) (sources : List Table) : Prop :=
  ∀ setting, config.datum? setting =
    ((said? sources setting).bind (Value.datum? setting.kind)).or (({} : Config).datum? setting)

/-- There is one configuration that follows some tables. -/
lemma Follows.iff_eq {config : Config} {sources : List Table} (follows : config.Follows sources)
    (other : Config) : other.Follows sources ↔ other = config :=
  ⟨fun h => ext_datum? fun setting => (h setting).trans (follows setting).symm,
    fun e => e ▸ follows⟩

/-- Layers say about each setting what the topmost one says of those that say anything about it. -/
lemma merged_eq {layers : List Layer} (typed : ∀ layer ∈ layers, layer.entries.Typed)
    (tidy : ∀ layer ∈ layers, Each Value.Tidy layer.entries) : (merged layers).Typed ∧
      ∀ setting : Setting, (Value.table (merged layers)).atPath? setting.path =
        said? (layers.reverse.map (·.entries)) setting := by
  -- Layers are laid on from below, so the last one lies on top and is asked first.
  induction layers using List.reverseRecOn with
  | nil => exact ⟨fun setting => rfl, fun setting => rfl⟩
  | append_singleton layers layer ih =>
    rw [List.forall_mem_append] at typed tidy
    obtain ⟨below, same⟩ := ih typed.1 tidy.1
    have top : merged (layers ++ [layer]) = Table.over (merged layers) layer.entries := by
      rw [merged, List.foldl_append]
      rfl
    have both (setting : Setting) := Value.fits_over (below setting)
      (typed.2 layer (.head _) setting) (Value.tidy_table.mpr (tidy.2 layer (.head _)))
    refine ⟨fun setting => ?_, fun setting => ?_⟩
    · rw [top]
      exact (both setting).1
    · rw [top]
      refine (both setting).2.trans ?_
      rw [same, List.reverse_append, List.reverse_singleton, List.singleton_append, List.map_cons,
        said?, said?, List.findSome?_cons]
      cases (Value.table layer.entries).atPath? setting.path <;> rfl

/-- Layers of the right kinds make the one configuration that follows them from the top down. -/
lemma ofLayers_eq {layers : List Layer} {sources : List Table}
    (same : layers.reverse.map (·.entries) = sources)
    (typed : ∀ entries ∈ sources, Table.Typed entries)
    (tidy : ∀ entries ∈ sources, Each Value.Tidy entries) :
    ∃ config, ofLayers layers = .ok config ∧
      ∀ other : Config, other.Follows sources ↔ other = config := by
  have mem (layer : Layer) (h : layer ∈ layers) : layer.entries ∈ sources :=
    same ▸ List.mem_map_of_mem (List.mem_reverse.mpr h)
  obtain ⟨kinds, found⟩ := merged_eq (fun layer h => typed _ (mem layer h))
    fun layer h => tidy _ (mem layer h)
  obtain ⟨config, read, holds⟩ := ofTable_eq kinds
  have follows : config.Follows sources := fun setting => by
    rw [holds, Value.datumAt?, found, same]
  exact ⟨config, by rw [ofLayers, read]; rfl, follows.iff_eq⟩

end EntityForge.Config

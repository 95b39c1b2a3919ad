import EntityForge.Config.Basic
import EntityForge.Proofs.Config.Table
import Mathlib

/-!
# Settings

A configuration is its settings, each of which has a place in a table: a key in the table of its
group. `Setting` lists them. A table in which the groups are tables and the settings have values of
their kinds can be read, and every setting then is what the table says about it, or the default.
-/

namespace EntityForge.Config

/-- What can be set. -/
inductive Setting where
  | schema
  | outputFolder
  | registry
  | controllerTemplate
  | extension
  | keepCase
  | serviceClass
  | serviceImport
  | accessor
  | importRoot
  | command
  | kinds
  deriving DecidableEq, Repr

/-- What a setting holds. -/
inductive Datum where
  | text (s : String)
  | truth (b : Bool)
  | texts (words : List String)
  deriving DecidableEq, Repr

/-- What kind of datum a setting holds. -/
inductive Kind where
  | text
  | truth
  | texts
  deriving DecidableEq, Repr

/-! ### Values as data -/

/-- The text that a value is. A single character is one. -/
def Value.text? : Value → Option String
  | .text s => some s
  | .character c => some (String.singleton c)
  | _ => none

/-- The datum of a kind that a value is. -/
def Value.datum? : Kind → Value → Option Datum
  | .text, v => v.text?.map .text
  | .truth, .truth b => some (.truth b)
  | .texts, .list items => (items.mapM Value.text?).map .texts
  | _, _ => none

/-- The datum of a kind at the end of a path. -/
def Value.datumAt? (kind : Kind) (path : List String) (v : Value) : Option Datum :=
  (v.atPath? path).bind (datum? kind)

/-- Whether there are tables on a path and a datum of a kind at its end, as far as it leads. -/
def Value.fits (kind : Kind) : List String → Value → Bool
  | [], v => (v.datum? kind).isSome
  | key :: path, .table entries => (entries.lookup key).all (fits kind path)
  | _ :: _, _ => false

/-- A table fits where the value under the next key does. -/
lemma Value.fits_table {kind : Kind} {key : String} {path : List String} {entries : Table} :
    (Value.table entries).fits kind (key :: path) ↔
      ∀ v, entries.lookup key = some v → v.fits kind path :=
  Option.all_eq_true _ _

/-- Only a table fits a path that goes on. -/
lemma Value.exists_of_fits {kind : Kind} {key : String} {path : List String} {v : Value}
    (h : v.fits kind (key :: path)) : ∃ entries, v = .table entries ∧
      ∀ w, entries.lookup key = some w → w.fits kind path := by
  cases v with
  | table entries => exact ⟨entries, rfl, fits_table.mp h⟩
  | _ => cases h

/-- A value that holds a datum is no table, so it takes the place of what it is laid over. -/
lemma Value.over_of_datum? {kind : Kind} {v : Value} {datum : Datum}
    (h : v.datum? kind = some datum) (lower : Value) : lower.over v = v := by
  cases v with
  | table entries => cases kind <;> cases h
  | _ => rfl

/-- Values that are data of a kind are read as such. -/
def Reads {α : Type} (kind : Kind) (datum : α → Datum) (read : Value → Except Mismatch α) : Prop :=
  ∀ v d, v.datum? kind = some d → ∃ a, read v = .ok a ∧ d = datum a

/-- A value with a text is read as that text. -/
lemma asText_eq {v : Value} {s : String} (h : v.text? = some s) (wanted : String) :
    v.asText wanted = .ok s := by
  cases v with
  | text | character =>
    cases h
    rfl
  | _ => cases h

/-- Texts are read from values that are texts. -/
lemma reads_asText (wanted : String) : Reads .text .text (Value.asText wanted) := by
  intro v d holds
  obtain ⟨s, text, rfl⟩ := Option.map_eq_some_iff.mp holds
  exact ⟨s, asText_eq text wanted, rfl⟩

/-- Truth values are read from values that are truth values. -/
lemma reads_asTruth : Reads .truth .truth Value.asTruth := by
  intro v d holds
  cases v with
  | truth b =>
    cases holds
    exact ⟨b, rfl, rfl⟩
  | _ => cases holds

/-- Items with texts are read as these texts, wherever they stand. -/
lemma textsFrom_eq {items : List Value} {words : List String}
    (h : items.mapM Value.text? = some words) (place : Nat) :
    textsFrom place items = .ok words := by
  induction items generalizing words place with
  | nil =>
    cases h
    rfl
  | cons v rest ih =>
    rw [List.mapM_cons] at h
    obtain ⟨s, first, h⟩ := Option.bind_eq_some_iff.mp h
    obtain ⟨more, others, h⟩ := Option.bind_eq_some_iff.mp h
    cases h
    rw [textsFrom, asText_eq first, ih others]
    rfl

/-- Lists of texts are read from values that are lists of texts. -/
lemma reads_asTexts : Reads .texts .texts Value.asTexts := by
  intro v d holds
  cases v with
  | list items =>
    obtain ⟨words, texts, rfl⟩ := Option.map_eq_some_iff.mp holds
    exact ⟨words, textsFrom_eq texts 0, rfl⟩
  | _ => cases holds

/-! ### Settings and their places -/

namespace Setting

/-- The group that a setting belongs to. -/
def group : Setting → String
  | schema | outputFolder | registry | controllerTemplate => "paths"
  | extension | keepCase => "generation"
  | serviceClass | serviceImport | accessor => "persistence"
  | importRoot => "registry"
  | command | kinds => "external"

/-- The key of a setting in its group. -/
def key : Setting → String
  | schema => "schema"
  | outputFolder => "output_dir"
  | registry => "registry"
  | controllerTemplate => "controller_template"
  | extension => "extension"
  | keepCase => "preserve_field_case"
  | serviceClass => "service_class"
  | serviceImport => "service_import"
  | accessor => "accessor"
  | importRoot => "import_prefix"
  | command => "command"
  | kinds => "kinds"

/-- What kind of datum a setting holds. -/
def kind : Setting → Kind
  | keepCase => .truth
  | command | kinds => .texts
  | _ => .text

/-- Where a setting stands in a table. -/
def path (setting : Setting) : List String :=
  [setting.group, setting.key]

end Setting

/-- What a configuration holds under a setting. Only a command may be missing. -/
def datum? (config : Config) : Setting → Option Datum
  | .schema => some (.text config.paths.schema)
  | .outputFolder => some (.text config.paths.outputFolder)
  | .registry => some (.text config.paths.registry)
  | .controllerTemplate => some (.text config.paths.controllerTemplate)
  | .extension => some (.text config.settings.extension)
  | .keepCase => some (.truth config.settings.keepCase)
  | .serviceClass => some (.text config.settings.persistence.serviceClass)
  | .serviceImport => some (.text config.settings.persistence.serviceImport)
  | .accessor => some (.text config.settings.persistence.accessor)
  | .importRoot => some (.text config.importRoot)
  | .command => config.external.command.map .texts
  | .kinds => some (.texts config.external.kinds)

/-- A configuration is no more than its settings. -/
lemma ext_datum? {config other : Config} (same : ∀ setting, config.datum? setting =
    other.datum? setting) : config = other := by
  have command : config.external.command = other.external.command :=
    Option.map_injective (fun _ _ => Datum.texts.inj) (same .command)
  obtain ⟨⟨schema, output, registry, template⟩, ⟨extension, keepCase, ⟨name, source, accessor⟩⟩,
    root, ⟨words, kinds⟩⟩ := config
  cases same .schema
  cases same .outputFolder
  cases same .registry
  cases same .controllerTemplate
  cases same .extension
  cases same .keepCase
  cases same .serviceClass
  cases same .serviceImport
  cases same .accessor
  cases same .importRoot
  cases same .kinds
  cases command
  rfl

/-! ### Slots -/

section

variable {σ τ : Type} {view : σ → Setting → Option Datum}

/-- The data that are held when a value has been taken up for some settings, where it lies at the
ends of paths. -/
def taken (held : Setting → Option Datum) (settings : List Setting) (path : Setting → List String)
    (v : Value) (setting : Setting) : Option Datum :=
  if setting ∈ settings then (v.datumAt? setting.kind (path setting)).or (held setting)
  else held setting

/-- What is taken up again has the same outcome. -/
lemma taken_taken (held : Setting → Option Datum) (settings others : List Setting)
    (path : Setting → List String) (v : Value) :
    taken (taken held settings path v) others path v = taken held (settings ++ others) path v := by
  funext setting
  simp only [taken, List.mem_append]
  by_cases first : setting ∈ settings
  · cases v.datumAt? setting.kind (path setting) <;> simp [first]
  · simp [first]

/-- A slot that takes up for some settings what a value says, and keeps the others. -/
def Slot.Takes (slot : Slot σ) (view : σ → Setting → Option Datum) (settings : List Setting)
    (path : Setting → List String) : Prop :=
  ∀ v s, (∀ setting ∈ settings, v.fits setting.kind (path setting)) →
    ∃ s', slot.fill v s = .ok s' ∧ view s' = taken (view s) settings path v

/-- A slot that puts in place what it reads takes it up for one setting. -/
lemma Slot.takes_of_reads {α : Type} {slot : Slot σ} {setting : Setting} {datum : α → Datum}
    {read : Value → Except Mismatch α} {put : α → σ → σ} (reads : Reads setting.kind datum read)
    (fill : ∀ v s, slot.fill v s = (read v).map (put · s))
    (puts : ∀ a s, view (put a s) = Function.update (view s) setting (some (datum a))) :
    slot.Takes view [setting] fun _ => [] := by
  intro v s fits
  obtain ⟨d, holds⟩ := Option.isSome_iff_exists.mp (fits setting (.head _))
  obtain ⟨a, found, rfl⟩ := reads v d holds
  refine ⟨put a s, by rw [fill, found]; rfl, (puts a s).trans (funext fun other => ?_)⟩
  rw [taken, Function.update_apply]
  by_cases here : other = setting
  · rw [here, if_pos rfl, if_pos (.head _), Value.datumAt?, Value.atPath?, Option.bind_some, holds]
    rfl
  · rw [if_neg here, if_neg (by simpa using here)]

/-- A slot takes up what a table says under its key. -/
lemma Slot.Takes.fillFrom {slot : Slot σ} {settings : List Setting}
    {path tail : Setting → List String} (takes : slot.Takes view settings tail)
    (below : ∀ setting ∈ settings, path setting = slot.key :: tail setting) {entries : Table}
    (fits : ∀ setting ∈ settings, (Value.table entries).fits setting.kind (path setting)) (s : σ) :
    ∃ s', slot.fillFrom entries s = .ok s' ∧
      view s' = taken (view s) settings path (.table entries) := by
  have lies (setting : Setting) (mem : setting ∈ settings) :
      (Value.table entries).datumAt? setting.kind (path setting) =
        (entries.lookup slot.key).bind (Value.datumAt? setting.kind (tail setting)) := by
    rw [below setting mem, Value.datumAt?, Value.atPath?, Option.bind_assoc]
    rfl
  cases found : entries.lookup slot.key with
  | none =>
    refine ⟨s, by rw [Slot.fillFrom, found], funext fun setting => ?_⟩
    rw [taken]
    split_ifs with mem
    · rw [lies setting mem, found]
      rfl
    · rfl
  | some v =>
    obtain ⟨s', filled, same⟩ := takes v s fun setting mem => by
      have inside := fits setting mem
      rw [below setting mem] at inside
      exact Value.fits_table.mp inside v found
    refine ⟨s', by rw [Slot.fillFrom, found]; dsimp only; rw [filled]; rfl, ?_⟩
    refine same.trans (funext fun setting => ?_)
    rw [taken, taken]
    split_ifs with mem
    · rw [lies setting mem, found]
      rfl
    · rfl

/-- A table is taken up slot by slot. The data of each slot lie below its key. -/
lemma foldlM_fillFrom {slots : List (Slot σ)} {groups : List (List Setting)}
    {path tail : Setting → List String} {entries : Table}
    (takes : List.Forall₂ (fun slot settings => slot.Takes view settings tail ∧
      ∀ setting ∈ settings, path setting = slot.key :: tail setting) slots groups)
    (fits : ∀ setting ∈ groups.flatten, (Value.table entries).fits setting.kind (path setting))
    (s : σ) : ∃ s', slots.foldlM (fun s slot => slot.fillFrom entries s) s = .ok s' ∧
      view s' = taken (view s) groups.flatten path (.table entries) := by
  induction takes generalizing s with
  | nil => exact ⟨s, rfl, rfl⟩
  | @cons slot settings slots groups first _ ih =>
    rw [List.flatten_cons, List.forall_mem_append] at fits
    obtain ⟨mid, filled, here⟩ := first.1.fillFrom first.2 fits.1 s
    obtain ⟨s', others, there⟩ := ih fits.2 mid
    refine ⟨s', by rw [List.foldlM_cons, filled]; exact others, ?_⟩
    rw [there, here, taken_taken, List.flatten_cons]

/-- A record is taken up slot by slot as well, one setting for each slot. -/
lemma Slot.takes_record {key : String} {layout : Layout τ} {get : σ → τ} {put : τ → σ → σ}
    {settings : List Setting} (ne : settings ≠ [])
    (same : ∀ s, view (put (get s) s) = view s)
    (takes : ∀ s, List.Forall₂ (fun slot setting =>
      slot.Takes (fun r => view (put r s)) [setting] (fun _ => []) ∧ setting.key = slot.key)
      layout.byKey settings) :
    (Slot.record key layout get put).Takes view settings fun setting => [setting.key] := by
  intro v s fits
  obtain ⟨first, more, split⟩ := List.exists_cons_of_ne_nil ne
  obtain ⟨entries, rfl, -⟩ := Value.exists_of_fits (fits first (split ▸ .head _))
  have slots : List.Forall₂ (fun slot settings => slot.Takes (fun r => view (put r s)) settings
      (fun _ => []) ∧ ∀ setting ∈ settings, [setting.key] = [slot.key])
      layout.byKey (settings.map ([·])) := by
    rw [List.forall₂_map_right_iff]
    refine (takes s).imp fun slot setting h => ⟨h.1, fun other mem => ?_⟩
    rw [List.mem_singleton.mp mem, h.2]
  have flat : (settings.map ([·])).flatten = settings := by
    rw [← List.flatMap_def, List.flatMap_singleton']
  have inside : ∀ setting ∈ (settings.map ([·])).flatten,
      (Value.table entries).fits setting.kind [setting.key] := by
    rwa [flat]
  obtain ⟨r, read, held⟩ := foldlM_fillFrom slots inside (get s)
  refine ⟨put r s, by rw [Slot.record]; dsimp only; rw [Layout.read, read]; rfl, ?_⟩
  rw [held, flat, same]

end

/-! ### Sections -/

/-- The settings of the sections, in the order in which these are read. -/
def grouped : List (List Setting) :=
  [[.command, .kinds], [.extension, .keepCase],
    [.controllerTemplate, .outputFolder, .registry, .schema],
    [.accessor, .serviceClass, .serviceImport], [.importRoot]]

/-- Whether a slot of a part of a configuration takes up one setting. -/
def TakesPart {τ : Type} (put : τ → Config) (slot : Slot τ) (setting : Setting) : Prop :=
  slot.Takes (fun part => (put part).datum?) [setting] (fun _ => []) ∧ setting.key = slot.key

/-- A slot of a section takes the value of its setting into the section. -/
lemma takesPart {τ α : Type} {put : τ → Config} {setting : Setting} {slot : Slot τ}
    {datum : α → Datum} {read : Value → Except Mismatch α} {set : α → τ → τ}
    (reads : Reads setting.kind datum read)
    (fill : ∀ v part, slot.fill v part = (read v).map (set · part))
    (named : setting.key = slot.key)
    (sets : ∀ a part other, (put (set a part)).datum? other =
      if other = setting then some (datum a) else (put part).datum? other) :
    TakesPart put slot setting :=
  ⟨Slot.takes_of_reads reads fill fun a part => funext fun other =>
    (sets a part other).trans (Function.update_apply _ _ _ _).symm, named⟩

section

variable (c : Config)

/-- The section about the scaffolder takes each of its settings. -/
lemma takes_external : List.Forall₂ (TakesPart fun part => { c with external := part })
    externalLayout.byKey [.command, .kinds] := by
  refine .cons (takesPart reads_asTexts (fun _ _ => rfl) rfl ?_)
    (.cons (takesPart reads_asTexts (fun _ _ => rfl) rfl ?_) .nil)
  all_goals rintro a part ⟨⟩ <;> rfl

/-- The section about the generated code takes each of its settings. -/
lemma takes_generation : List.Forall₂ (TakesPart fun part => { c with settings := part })
    generationLayout.byKey [.extension, .keepCase] := by
  refine .cons (takesPart (reads_asText _) (fun _ _ => rfl) rfl ?_)
    (.cons (takesPart reads_asTruth (fun _ _ => rfl) rfl ?_) .nil)
  all_goals rintro a part ⟨⟩ <;> rfl

/-- The section about paths takes each of its settings. -/
lemma takes_paths : List.Forall₂ (TakesPart fun part => { c with paths := part })
    pathsLayout.byKey [.controllerTemplate, .outputFolder, .registry, .schema] := by
  refine .cons (takesPart (reads_asText _) (fun _ _ => rfl) rfl ?_)
    (.cons (takesPart (reads_asText _) (fun _ _ => rfl) rfl ?_)
      (.cons (takesPart (reads_asText _) (fun _ _ => rfl) rfl ?_)
        (.cons (takesPart (reads_asText _) (fun _ _ => rfl) rfl ?_) .nil)))
  all_goals rintro a part ⟨⟩ <;> rfl

/-- The section about persistence takes each of its settings. -/
lemma takes_persistence :
    List.Forall₂
      (TakesPart fun part => { c with settings := { c.settings with persistence := part } })
      persistenceLayout.byKey [.accessor, .serviceClass, .serviceImport] := by
  refine .cons (takesPart (reads_asText _) (fun _ _ => rfl) rfl ?_)
    (.cons (takesPart (reads_asText _) (fun _ _ => rfl) rfl ?_)
      (.cons (takesPart (reads_asText _) (fun _ _ => rfl) rfl ?_) .nil))
  all_goals rintro a part ⟨⟩ <;> rfl

/-- The section about the registry takes each of its settings. -/
lemma takes_registry : List.Forall₂ (TakesPart fun part => { c with importRoot := part })
    registryLayout.byKey [.importRoot] := by
  refine .cons (takesPart (reads_asText _) (fun _ _ => rfl) rfl ?_) .nil
  all_goals rintro a part ⟨⟩ <;> rfl

end

/-- The sections take up the settings of their groups. -/
lemma takes_sections : List.Forall₂ (fun slot settings =>
    slot.Takes datum? settings (fun setting => [setting.key]) ∧
      ∀ setting ∈ settings, setting.path = slot.key :: [setting.key]) sections grouped := by
  refine .cons ⟨Slot.takes_record nofun (fun _ => rfl) takes_external, ?_⟩
    (.cons ⟨Slot.takes_record nofun (fun _ => rfl) takes_generation, ?_⟩
      (.cons ⟨Slot.takes_record nofun (fun _ => rfl) takes_paths, ?_⟩
        (.cons ⟨Slot.takes_record nofun (fun _ => rfl) takes_persistence, ?_⟩
          (.cons ⟨Slot.takes_record nofun (fun _ => rfl) takes_registry, ?_⟩ .nil))))
  all_goals simp [Setting.path, Setting.group, Slot.record]

/-- Whether the groups of settings are tables and the settings in them have values of their kinds,
as far as there are any. -/
def Table.Typed (entries : Table) : Prop :=
  ∀ setting : Setting, (Value.table entries).fits setting.kind setting.path

/-- A table of the right kinds is read, and what it does not say is left at the defaults. -/
lemma ofTable_eq {entries : Table} (typed : entries.Typed) :
    ∃ config, ofTable entries = .ok config ∧ ∀ setting,
      config.datum? setting = ((Value.table entries).datumAt? setting.kind setting.path).or
        (({} : Config).datum? setting) := by
  obtain ⟨config, read, held⟩ :=
    foldlM_fillFrom takes_sections (fun setting _ => typed setting) {}
  refine ⟨config, read, fun setting => ?_⟩
  -- The sections leave no setting out.
  rw [held, taken, if_pos]
  cases setting <;> decide

end EntityForge.Config

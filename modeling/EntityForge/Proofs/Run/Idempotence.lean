import EntityForge.Proofs.Run.Repetition
import Mathlib

/-!
# Runs that are repeated

A run that follows a run over the same target leaves the disk as it is, and says the same of every
entity except that nothing was registered. Its turns find what they need: the folders of the
entities are there and the entities are registered, and whatever else is read stands where the first
run has changed nothing since the turn that read it.
-/

namespace EntityForge.Run.Options

open Disk (placeOf trailOf SameSort)
open Machine (perform)

variable {options : Options} {s : Surroundings} {m m' : Machine}

/-! ### What a run has registered -/

/-- The entities that are declared. -/
def declaredNames (schema : String) (names : List String) : List EntityName :=
  (names.filter fun name => (Entity.find? schema name).isSome).map EntityName.mk

/-- The declared names are the names under which an entity is found. -/
lemma mem_declaredNames {schema : String} {names : List String} {name : EntityName} :
    name ∈ declaredNames schema names ↔
      name.source ∈ names ∧ (Entity.find? schema name.source).isSome := by
  rw [declaredNames, List.mem_map]
  constructor
  · rintro ⟨source, mem, rfl⟩
    exact List.mem_filter.mp mem
  · exact fun both => ⟨name.source, List.mem_filter.mpr both, rfl⟩

namespace Completed

variable {schema name : String} {names : List String} {outcomes : List Outcome}
  (hext : '/' ∉ options.settings.extension.toList)
  (outside : options.Outside schema names m.here (placeOf m.here options.registry))

include hext outside

/-- A run registers the entities that are declared. -/
lemma registryText_eq (run : options.Completed s schema names m outcomes m') :
    options.registryText m' = (options.registryText m).bind
      (Registry.registerAll? options.importRoot · (declaredNames schema names)) := by
  induction run with
  | @nil m => cases options.registryText m <;> rfl
  | @miss requested rest m n m' more none_ disk here run ih =>
    have same := options.registryText_congr here (by rw [disk])
    have names : declaredNames schema (requested :: rest) = declaredNames schema rest := by
      rw [declaredNames, List.filter_cons, if_neg (by rw [none_]; nofun)]
      rfl
    rw [names, ← same]
    exact ih (here ▸ (List.forall_mem_cons.mp outside).2)
  | @turn requested rest report m mid n m' more t disk here run ih =>
    obtain ⟨first, others⟩ := List.forall_mem_cons.mp outside
    have found := t.isSome_find?
    have same := options.registryText_congr here (by rw [disk])
    have names : declaredNames schema (requested :: rest) =
        ⟨requested⟩ :: declaredNames schema rest := by
      rw [declaredNames, List.filter_cons, if_pos found]
      rfl
    rw [← t.here, ← here] at others
    obtain ⟨before, after, both⟩ := t.registers hext (first found)
    rw [ih others, same, after, before, names, Option.bind_some, Option.bind_some, both]

/-- A run that has generated an entity leaves a registry. -/
lemma isSome_registryText (run : options.Completed s schema names m outcomes m')
    (h : (name ∈ names ∧ (Entity.find? schema name).isSome) ∨ (options.registryText m).isSome) :
    (options.registryText m').isSome := by
  induction run with
  | nil => exact h.resolve_left fun both => List.not_mem_nil both.1
  | @miss requested rest m n m' more none_ disk here run ih =>
    have same := options.registryText_congr here (by rw [disk])
    refine ih (here ▸ (List.forall_mem_cons.mp outside).2) (same ▸ h.imp_left fun both => ?_)
    refine ⟨(List.mem_cons.mp both.1).resolve_left ?_, both.2⟩
    rintro rfl
    rw [none_] at both
    cases both.2
  | @turn requested rest report m mid n m' more t disk here run ih =>
    obtain ⟨first, others⟩ := List.forall_mem_cons.mp outside
    have same := options.registryText_congr here (by rw [disk])
    rw [← t.here, ← here] at others
    obtain ⟨-, after, -⟩ := t.registers hext (first t.isSome_find?)
    exact ih others (.inr (by rw [same, after]; rfl))

/-- What a run has registered need not be registered again. -/
lemma settled (newline : '\n' ∉ options.importRoot.toList) (quote : '\'' ∉ options.importRoot.toList)
    (comma : ',' ∉ options.importRoot.toList)
    (run : options.Completed s schema names m outcomes m')
    (apart : ∀ document, options.registryText m = some document →
      ∀ list, Registry.ImportsList.find? document.toList = some list →
      ∀ l ∈ Text.lines (list.touched document.toList), ∀ name ∈ names,
        (Entity.find? schema name).isSome →
          Text.trim l ≠ (Registry.importLine options.importRoot ⟨name⟩).toList)
    (mem : name ∈ names) (found : (Entity.find? schema name).isSome) :
    options.Settled m' name := by
  obtain ⟨text, last⟩ := Option.isSome_iff_exists.mp
    (run.isSome_registryText hext outside (.inl ⟨mem, found⟩))
  have all := run.registryText_eq hext outside
  rw [last] at all
  obtain ⟨document, first, registered⟩ := Option.bind_eq_some_iff.mp all.symm
  have word (other : EntityName) (mem : other ∈ declaredNames schema names) :
      Schema.IsWord other.source := Entity.isWord_of_isSome (mem_declaredNames.mp mem).2
  have title (other : EntityName) (mem : other ∈ declaredNames schema names) :=
    EntityName.isIdentifier_title (word other mem)
  have slug (other : EntityName) (mem : other ∈ declaredNames schema names) :=
    (EntityName.isWord_slug (word other mem)).isIdentifier
  have begins : Registry.Grown options.importRoot (declaredNames schema names) document.toList []
      document.toList := by
    refine .nil fun list find l inside other mem => ?_
    obtain ⟨mem, found⟩ := mem_declaredNames.mp mem
    exact apart document first list find l inside other.source mem found
  have grown := begins.run newline quote comma title slug (by simp) (fun _ mem => mem) registered
  obtain ⟨listFound, present⟩ := grown.present newline title slug (fun _ mem => mem)
    (mem_declaredNames.mpr ⟨mem, found⟩)
  exact ⟨text, listFound, last, present⟩

end Completed

/-! ### A run that is repeated -/

/-- Whether the second outcome says what the first one says, except that nothing was registered. -/
def Repeats (first second : Outcome) : Prop :=
  second.requested = first.requested ∧
    match first.result, second.result with
    | .ok report, .ok report' =>
      ∃ listFound, report' = { report with registry := ⟨false, false, listFound⟩ }
    | .error e, .error e' => e' = e
    | _, _ => False

/-- Whether schema and template are other files than the registry, and nothing that a run reads is
in the folder of an entity. Nor does the path of schema or template lead through such a folder. -/
structure Apart (options : Options) (text : String) (names : List String) (here : Location) :
    Prop where
  registry : options.Outside text names here (placeOf here options.registry)
  schema : ∀ stop ∈ trailOf here options.schema, options.Outside text names here stop
  schema_ne : placeOf here options.schema ≠ placeOf here options.registry
  template : ∀ template ∈ options.controllerTemplate, ∀ stop ∈ trailOf here template,
    options.Outside text names here stop
  template_ne : ∀ template ∈ options.controllerTemplate,
    placeOf here template ≠ placeOf here options.registry

/-- What is apart from the folders of entities is apart from those of the later ones. -/
lemma Apart.tail {schema requested : String} {rest : List String} {here : Location}
    (apart : options.Apart schema (requested :: rest) here) : options.Apart schema rest here where
  registry := (List.forall_mem_cons.mp apart.registry).2
  schema stop mem := (List.forall_mem_cons.mp (apart.schema stop mem)).2
  schema_ne := apart.schema_ne
  template path some stop mem := (List.forall_mem_cons.mp (apart.template path some stop mem)).2
  template_ne := apart.template_ne

/-- Whether a turn finds the folder of its entity and the entity in the registry. -/
structure Ready (options : Options) (m : Machine) (name : String) : Prop where
  stands : options.Standing m name
  settled : options.Settled m name

/-- A turn is ready on every machine with the same disk. -/
lemma Ready.congr {name : String} {n : Machine} (ready : options.Ready m name)
    (disk : n.disk = m.disk) (here : n.here = m.here) : options.Ready n name := by
  refine ⟨ready.stands.congr disk here, ?_⟩
  rw [Settled, options.registryText_congr here (by rw [disk])]
  exact ready.settled

namespace Turn

variable {schema requested name : String} {rest : List String} {report : Report} {mid : Machine}
  (t : options.Turn s schema requested report m mid)
  (hext : '/' ∉ options.settings.extension.toList)

include t hext

/-- After a turn, the next ones change nothing outside the folders of their entities but the text of
the registry. -/
lemma get?_later {next : Machine} {more : List Outcome} (disk : next.disk = mid.disk)
    (here : next.here = mid.here) (run : options.Completed s schema rest next more m')
    {place : Location} (outside : options.Outside schema rest m.here place) :
    SameSort mid.disk m'.disk place ∧ (place ≠ placeOf m.here options.registry →
      m'.disk.get? place = mid.disk.get? place) := by
  have same : next.here = m.here := here.trans t.here
  have kept := run.get?_eq hext (same ▸ outside)
    (.inl ((t.standing.congr disk here).paved t.word))
  rwa [SameSort, disk, same] at kept

/-- A machine that is as the run has left its own outside the folders of entities holds the template
that each turn has met. -/
lemma shares {next n : Machine} {more : List Outcome} (disk : next.disk = mid.disk)
    (here : next.here = mid.here) (run : options.Completed s schema rest next more m')
    (apart : options.Apart schema (requested :: rest) m.here)
    (same : ∀ place, options.Outside schema (requested :: rest) m.here place →
      n.disk.get? place = m'.disk.get? place) : t.Shares n := by
  intro path some
  have elsewhere (stop : Location) (mem : stop ∈ trailOf m.here path) :=
    List.forall_mem_cons.mp (apart.template path some stop mem)
  have kept (stop : Location) (mem : stop ∈ trailOf m.here path) :
      t.written.disk.get? stop = t.emptied.disk.get? stop :=
    t.filling.get?_eq hext (t.entity_name_eq ▸ (elsewhere stop mem).1 t.isSome_find?)
  have later (stop : Location) (mem : stop ∈ trailOf m.here path) :=
    t.get?_later hext disk here run (elsewhere stop mem).2
  refine ⟨fun stop mem => ⟨(elsewhere stop mem).1 t.isSome_find?, ?_⟩, ?_⟩
  · have now := same stop (apart.template path some stop mem)
    have sort := (t.sameSort stop).trans (later stop mem).1
    rw [kept stop mem, ← now] at sort
    exact sort
  · have mem : placeOf m.here path ∈ trailOf m.here path :=
      Disk.placeOf_mem_trailOf _ _
    have ne := apart.template_ne path some
    have shown := t.shows (placeOf m.here path)
    rw [if_neg ne] at shown
    rw [← kept _ mem, ← shown, ← (later _ mem).2 ne]
    exact (same _ (apart.template path some _ mem)).symm

/-- A turn that registers nothing leaves the machine ready for others. -/
lemma ready_of (word : Schema.IsWord name) (ready : options.Ready m name)
    (same : mid.disk.get? (placeOf m.here options.registry) =
      m.disk.get? (placeOf m.here options.registry)) : options.Ready mid name := by
  obtain ⟨stands, settled⟩ := ready
  refine ⟨t.standing_of hext word (stands.folder _ (Disk.placeOf_mem_trailOf _ _)), ?_⟩
  rwa [Settled, options.registryText_congr t.here same]

end Turn

/-- Turns that came to their end can be taken again, on a machine that is ready for them and is as
they have left theirs outside the folders of their entities. They leave it as they have left
theirs. -/
lemma Completed.exists_again {schema : String} {names : List String} {outcomes : List Outcome}
    (plain : options.scaffolder = none) (hext : '/' ∉ options.settings.extension.toList)
    (faultless : s.Faultless) (run : options.Completed s schema names m outcomes m')
    (visible : ∀ name ∈ names, (Entity.find? schema name).isSome → options.Visible m name)
    (apart : options.Apart schema names m.here) {n : Machine} (here : n.here = m.here)
    (ready : ∀ name ∈ names, (Entity.find? schema name).isSome → options.Ready n name)
    (same : ∀ place, options.Outside schema names m.here place →
      n.disk.get? place = m'.disk.get? place) :
    ∃ again n', options.Turns s schema names n (.ok again) n' ∧
      List.Forall₂ Repeats outcomes again ∧ n'.here = n.here ∧
      ∀ place, n'.disk.get? place = m'.disk.get? place := by
  induction run generalizing n with
  | nil => exact ⟨[], n, .nil, .nil, rfl, fun place => same place (List.forall_mem_nil _)⟩
  | @miss requested rest m mid m' more none_ disk here' run ih =>
    obtain ⟨-, visible⟩ := List.forall_mem_cons.mp visible
    obtain ⟨-, ready⟩ := List.forall_mem_cons.mp ready
    have turn : perform s (options.generate schema requested).run (n.tell (.started requested)) =
        (.error (.modelNotFound requested), n.tell (.started requested)) := by
      rw [generate, none_]
      rfl
    obtain ⟨again, n', turns, repeats, stays, holds⟩ :=
      @ih (fun name mem found => (visible name mem found).congr disk here') (here' ▸ apart.tail)
        ((n.tell (.started requested)).tell
          (.finished ⟨requested, .error (.modelNotFound requested)⟩)) (here.trans here'.symm)
        (fun name mem found => (ready name mem found).congr rfl rfl) (fun place outside => by
          refine same place (List.forall_mem_cons.mpr ⟨fun found => ?_, here' ▸ outside⟩)
          rw [none_] at found
          cases found)
    exact ⟨_ :: again, n', .next turn (fun e same => Except.error.inj same ▸ rfl) turns,
      .cons ⟨rfl, rfl⟩ repeats, stays, holds⟩
  | @turn requested rest report m mid next m' more t disk here' run ih =>
    obtain ⟨visible', visible⟩ := List.forall_mem_cons.mp visible
    obtain ⟨ready', ready⟩ := List.forall_mem_cons.mp ready
    obtain ⟨outside, others⟩ := List.forall_mem_cons.mp apart.registry
    have outside := outside t.isSome_find?
    have at_ : next.here = m.here := here'.trans t.here
    have begins : options.Ready (n.tell (.started requested)) requested :=
      (ready' t.isSome_find?).congr (by rfl) (by rfl)
    obtain ⟨listFound, n', turn, stays, holds⟩ := t.exists_again hext faultless
      (visible' t.isSome_find?) (n := n.tell (.started requested)) here begins.stands begins.settled
      outside (t.shares hext disk here' run apart same) plain
    have visible (name : String) (mem : name ∈ rest) (found : (Entity.find? schema name).isSome) :
        options.Visible next name :=
      (t.visible_of hext (Entity.isWord_of_isSome found) (others name mem found)
        (visible name mem found)).congr disk here'
    have ready (name : String) (mem : name ∈ rest) (found : (Entity.find? schema name).isSome) :
        options.Ready n' name := by
      obtain ⟨t'⟩ := options.exists_turn plain hext turn
      refine t'.untold.ready_of hext (Entity.isWord_of_isSome found) (ready name mem found) ?_
      rw [holds, here, if_neg outside]
      rfl
    have same (place : Location) (elsewhere : options.Outside schema rest m.here place) :
        n'.disk.get? place = m'.disk.get? place := by
      rw [holds]
      split_ifs with below
      · have ne : place ≠ placeOf m.here options.registry := by
          rintro rfl
          exact outside below
        rw [(t.get?_later hext disk here' run elsewhere).2 ne, t.shows, if_neg ne]
      · exact same place (List.forall_mem_cons.mpr ⟨fun _ => below, elsewhere⟩)
    obtain ⟨again, last, turns, repeats, ends, result⟩ :=
      @ih visible (at_ ▸ apart.tail)
        (n'.tell (.finished ⟨requested, .ok { report with registry := ⟨false, false, listFound⟩ }⟩))
        (stays.trans (here.trans at_.symm))
        (fun name mem found => (ready name mem found).congr (by rfl) (by rfl))
        (fun place elsewhere => same place (at_ ▸ elsewhere))
    exact ⟨_ :: again, last, .next turn (fun _ failed => by cases failed) turns,
      .cons ⟨rfl, listFound, rfl⟩ repeats, ends.trans stays, result⟩

/-- Whether a project is one in which a run over some names leaves nothing for the next one to do. -/
structure Repeatable (options : Options) (text : String) (names : List String) (m : Machine) :
    Prop extends Apart options text names m.here where
  /-- A folder of an entity that is not found by its path is not there. -/
  found : ∀ name ∈ names, (Entity.find? text name).isSome →
    m.disk.find? m.here (options.entityFolder ⟨name⟩) = none →
      ∀ place, placeOf m.here (options.entityFolder ⟨name⟩) <+: place → m.disk.get? place = none
  /-- No line that the list of the registry stands on is the import line of an entity. -/
  lines : ∀ document, options.registryText m = some document →
    ∀ list, Registry.ImportsList.find? document.toList = some list →
      ∀ l ∈ Text.lines (list.touched document.toList), ∀ name ∈ names,
        (Entity.find? text name).isSome →
          Text.trim l ≠ (Registry.importLine options.importRoot ⟨name⟩).toList

/-- A run that follows a run over the same target, with the disk as that one has left it, says the
same of every entity, except that nothing was registered, and leaves the disk as it is. This needs a
project that is repeatable: if the path to a folder leads through one that is missing, the first run
fills the folder without emptying it, and the second one empties it. -/
theorem run_again (plain : options.scaffolder = none)
    (hext : '/' ∉ options.settings.extension.toList) (faultless : s.Faultless)
    (newline : '\n' ∉ options.importRoot.toList) (quote : '\'' ∉ options.importRoot.toList)
    (comma : ',' ∉ options.importRoot.toList) {target : Target} {summary : Summary}
    (repeatable : ∀ schema names, m.disk.readText m.here options.schema = .ok schema →
      target.names schema = .ok names → options.Repeatable schema names m)
    (h : perform s (options.run target).run m = (.ok summary, m'))
    {n : Machine} (disk : n.disk = m'.disk) (here : n.here = m'.here) :
    ∃ again n', perform s (options.run target).run n = (.ok again, n') ∧
      List.Forall₂ Repeats summary.outcomes again.outcomes ∧ n'.here = n.here ∧
      ∀ place, n'.disk.get? place = n.disk.get? place := by
  obtain ⟨-, -, e, failed⟩ | ⟨schema, names, begun, outcomes, read, resolved, disk', here', turns,
    result⟩ := turns_of_run h
  · cases failed
  cases outcomes with
  | error e => cases result
  | ok outcomes =>
    cases result
    obtain ⟨apart, seen, lines⟩ := repeatable schema names read resolved
    rw [← here'] at apart
    have run := turns.completed plain hext
    have stays : n.here = begun.here := here.trans run.here
    have visible (name : String) (mem : name ∈ names)
        (found : (Entity.find? schema name).isSome) : options.Visible begun name :=
      (visible_of_find? (seen name mem found)).congr disk' here'
    rw [← options.registryText_congr here' (by rw [disk'])] at lines
    have ready (name : String) (mem : name ∈ names) (found : (Entity.find? schema name).isSome) :
        options.Ready n name := by
      have ready : options.Ready m' name := ⟨run.standing hext found (.inl mem),
        run.settled hext apart.registry newline quote comma lines mem found⟩
      exact ready.congr disk here
    -- the schema is still the same
    have read' : n.disk.readText n.here options.schema = .ok schema := by
      rw [Disk.readText_eq_ok, ← disk', ← here'] at read
      obtain ⟨⟨isPath, way⟩, there⟩ := read
      have kept (place : Location) (mem : place ∈ trailOf begun.here options.schema)
          {entry : Entry} (there : begun.disk.get? place = some entry) :=
        run.get?_eq hext (apart.schema place mem) (.inr (by rw [there]; nofun))
      rw [disk, stays]
      refine Disk.readText_eq_ok.mpr ⟨⟨isPath, fun stop mem => ?_⟩, ?_⟩
      · have folder := way stop mem
        exact (kept stop (Disk.mem_trailOf.mpr (.inl mem)) folder).1.folder_iff.mp folder
      · rw [(kept _ (Disk.placeOf_mem_trailOf _ _) there).2 apart.schema_ne]
        exact there
    obtain ⟨begun', begins, at_, takes⟩ := exists_perform_run (faultless _) read' resolved
    obtain ⟨again, last, turns', repeats, ends, holds⟩ :=
      run.exists_again plain hext faultless visible apart (n := begun') (at_.trans stays)
        (fun name mem found => (ready name mem found).congr begins at_)
        (fun place _ => by rw [begins, disk])
    refine ⟨⟨again⟩, last, takes _ _ turns', repeats, ends.trans at_, fun place => ?_⟩
    rw [holds, disk]

/-- A schema with two models that have one folder. -/
def sharing : String :=
  "model User \x7b id Int \x7d model USER \x7b \x7d"

/-- A project with that schema and the output of an earlier run. -/
def shared : Disk :=
  ⟨(["prisma"], .folder) :: (["prisma", "schema.prisma"], .file (.text sharing)) ::
    earlier.entries⟩

/-- A run over two models that share a folder can be taken again. -/
theorem run_again_shared :
    ∃ summary m' again n',
      perform calm (({} : Options).run .all).run ⟨shared, [], 0, [], []⟩ = (.ok summary, m') ∧
      summary.outcomes.map (·.requested) = ["User", "USER"] ∧
      perform calm (({} : Options).run .all).run m' = (.ok again, n') ∧
      List.Forall₂ Repeats summary.outcomes again.outcomes ∧
      ∀ place, n'.disk.get? place = m'.disk.get? place := by
  have extension : '/' ∉ ({} : Options).settings.extension.toList := by simp
  have read : shared.readText [] ({} : Options).schema = .ok sharing := by decide +kernel
  have resolved : Target.all.names sharing = .ok ["User", "USER"] := by decide +kernel
  have outside (place : Location) (elsewhere : ∀ name ∈ ["User", "USER"],
      ¬ placeOf [] (({} : Options).entityFolder ⟨name⟩) <+: place) :
      ({} : Options).Outside sharing ["User", "USER"] [] place :=
    fun name mem _ => elsewhere name mem
  have apart : ({} : Options).Apart sharing ["User", "USER"] [] := by
    refine ⟨outside _ (by decide +kernel), fun stop mem => outside stop ?_, by decide +kernel,
      fun template some stop mem => outside stop ?_, fun template some => ?_⟩
    · revert stop
      decide +kernel
    · cases some
      revert stop
      decide +kernel
    · cases some
      decide +kernel
  have there : ∀ name ∈ ["User", "USER"],
      shared.find? [] (({} : Options).entityFolder ⟨name⟩) = some .folder := by decide +kernel
  have registry : ({} : Options).registryText ⟨shared, [], 0, [], []⟩ = some "imports: []\n" := by
    decide +kernel
  have lines : ∀ list ∈ Registry.ImportsList.find? "imports: []\n".toList,
      ∀ l ∈ Text.lines (list.touched "imports: []\n".toList), ∀ name ∈ ["User", "USER"],
        Text.trim l ≠ (Registry.importLine "../modules" ⟨name⟩).toList := by decide +kernel
  have repeatable : ({} : Options).Repeatable sharing ["User", "USER"] ⟨shared, [], 0, [], []⟩ := by
    refine ⟨apart, fun name mem _ missing => ?_, fun document first list find l inside name mem _ => ?_⟩
    · exact absurd ((there name mem).symm.trans missing) (Option.some_ne_none _)
    · rw [registry] at first
      cases first
      exact lines list find l inside name mem
  have ends : (perform calm (({} : Options).run .all).run ⟨shared, [], 0, [], []⟩).1.toOption.map
      (·.outcomes.map (·.requested)) = some ["User", "USER"] := by decide +kernel
  generalize run : perform calm (({} : Options).run .all).run ⟨shared, [], 0, [], []⟩ = taken at *
  obtain ⟨result, m'⟩ := taken
  cases result with
  | error e => cases ends
  | ok summary =>
    obtain ⟨again, n', second, repeats, -, same⟩ := run_again rfl extension (fun _ => rfl) (by simp)
      (by simp) (by simp) (fun schema names read' resolved' => by
        rw [read] at read'
        cases read'
        rw [resolved] at resolved'
        cases resolved'
        exact repeatable) run (n := m') rfl rfl
    exact ⟨summary, m', again, n', rfl, Option.some.inj ends, second, repeats, same⟩

end EntityForge.Run.Options

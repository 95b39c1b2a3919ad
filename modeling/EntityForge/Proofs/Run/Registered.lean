import EntityForge.Proofs.Registry.Sequence
import EntityForge.Proofs.Run.Batch
import EntityForge.Proofs.Run.Turn
import Mathlib

/-!
# What a run registers

The registry is the last thing that a turn writes, so a turn that fails leaves it alone, and the
turns of other entities do not reach the files of an entity. Hence, whatever fails in a run and
wherever it ends, the entities that it has registered have their files.
-/

namespace EntityForge.Run.Options

open Disk (placeOf)
open Machine (perform Kept Spares)

variable {options : Options} {s : Surroundings} {schema requested : String} {m m' : Machine}

/-! ### Turns that fail -/

/-- What removes a folder and writes files in it spares all that is elsewhere. -/
lemma spares_of_allows {here : Location} {folder : String} {files : List String} {launches : Prop}
    {keep : Location → Prop} (never : ¬ launches)
    (outside : ∀ place, keep place → ¬ placeOf here folder <+: place)
    (apart : ∀ path ∈ files, ¬ keep (placeOf here path)) (r : Request)
    (h : Allows folder files launches r) : Spares keep here r := by
  cases r with
  | writeText path text => exact apart path h
  | removeTree path =>
    cases h
    exact outside
  | launch command => exact never h
  | _ => trivial

/-- The files of an entity lie in its folder. -/
lemma prefix_of_mem_filesOf {name : EntityName} (word : Schema.IsWord name.source)
    (hext : '/' ∉ options.settings.extension.toList) (here : Location) :
    ∀ path ∈ options.filesOf name,
      placeOf here (options.entityFolder name) <+: placeOf here path := by
  have ends := options.endsNamed_entityFolder word
  rw [filesOf, List.forall_mem_cons, options.controllerPath_eq word, List.forall_mem_map]
  refine ⟨?_, fun names mem => ?_⟩
  · rw [Disk.placeOf_below here ends.ne_empty (List.forall_mem_singleton.mpr
      (EntityName.isName_controllerName word hext))]
    exact List.prefix_append _ _
  · rw [Disk.placeOf_below here ends.ne_empty (EntityName.isName_of_mem_artifactPlaces word hext names mem)]
    exact List.prefix_append _ _

/-- A job that goes on after another one fails with it, or goes on where that one has kept what it
had to keep. -/
lemma kept_bind {α β : Type} {keep : Location → Prop} {job : Job α} {f : α → Job β} {mid : Machine}
    {result : Except Failure β} {C : Prop} (kept : Kept keep m mid)
    (h : perform s (job >>= f).run mid = (result, m')) (first : job.All (Spares keep mid.here))
    (fails : (∃ e, result = .error e) ∧ Kept keep m m' → C)
    (next : ∀ a n, perform s job.run mid = (.ok a, n) → Kept keep m n →
      perform s (f a).run n = (result, m') → C) : C := by
  have kept := kept.trans (Machine.kept_perform s first)
  rw [Machine.perform_bind] at h
  generalize ran : perform s job.run mid = taken at h kept
  obtain ⟨taken, n⟩ := taken
  cases taken with
  | ok a => exact next a n ran kept h
  | error e =>
    cases h
    exact fails ⟨⟨e, rfl⟩, kept⟩

section

variable (plain : options.scaffolder = none)

include plain

/-- A turn fails before it comes to the registry, or the registry is the last thing that it sees to.
Until then it keeps what is neither in the folder of its entity nor one of its files. -/
lemma kept_until_registry {keep : Location → Prop} {result : Except Failure Report}
    (outside : (Entity.find? schema requested).isSome → ∀ place, keep place →
      ¬ placeOf m.here (options.entityFolder ⟨requested⟩) <+: place)
    (apart : (Entity.find? schema requested).isSome → ∀ path ∈ options.filesOf ⟨requested⟩,
      ¬ keep (placeOf m.here path))
    (h : perform s (options.generate schema requested).run m = (result, m')) :
    (∃ e, result = .error e) ∧ Kept keep m m' ∨
      ∃ mid change, Kept keep m mid ∧
        perform s (options.updateRegistry ⟨requested⟩).run mid = (change, m') ∧
        change.isOk = result.isOk := by
  rw [generate] at h
  cases declared : Entity.find? schema requested with
  | none =>
    rw [declared] at h
    cases h
    exact .inl ⟨⟨_, rfl⟩, .refl m⟩
  | some entity =>
    rw [declared] at h outside apart
    obtain ⟨same, word⟩ := Entity.isWord_of_find? declared
    rw [← same] at outside apart ⊢
    have all {α : Type} {job : Job α} {n : Machine} (kept : Kept keep m n)
        (h : job.All (Allows (options.entityFolder entity.name) (options.filesOf entity.name)
          False)) : job.All (Spares keep n.here) := by
      refine ⟨h.action.mono fun r allowed => ?_⟩
      rw [kept.1]
      exact spares_of_allows id (outside rfl) (apart rfl) r allowed
    refine kept_bind (.refl m) h (options.all_render (fun _ => trivial) entity) .inl
      fun artifacts n render kept h => ?_
    have rendered := (options.perform_render_ok render).1
    refine kept_bind kept h (Job.all_note trivial) .inl fun _ n _ kept h => ?_
    refine kept_bind kept h (all kept allows_renewFolder) .inl fun _ n _ kept h => ?_
    refine kept_bind kept h (all kept (options.allows_runScaffolder _ (absurd plain))) .inl
      fun _ n _ kept h => ?_
    refine kept_bind kept h (all kept (options.allows_writeController _ List.mem_cons_self)) .inl
      fun _ n _ kept h => ?_
    refine kept_bind kept h
      (all kept (options.allows_writeArtifacts (join_mem_filesOf word rendered))) .inl
      fun _ n _ kept h => ?_
    rw [Machine.perform_bind] at h
    generalize last : perform s (options.updateRegistry entity.name).run n = taken at h
    obtain ⟨change, left⟩ := taken
    cases change with
    | ok change =>
      cases h
      exact .inr ⟨n, .ok change, kept, last, rfl⟩
    | error e =>
      cases h
      exact .inr ⟨n, .error e, kept, last, rfl⟩

/-- A turn that fails has not even touched the registry. -/
lemma kept_of_generate_error {keep : Location → Prop} {e : Failure}
    (outside : (Entity.find? schema requested).isSome → ∀ place, keep place →
      ¬ placeOf m.here (options.entityFolder ⟨requested⟩) <+: place)
    (apart : (Entity.find? schema requested).isSome → ∀ path ∈ options.filesOf ⟨requested⟩,
      ¬ keep (placeOf m.here path))
    (h : perform s (options.generate schema requested).run m = (.error e, m')) : Kept keep m m' := by
  obtain ⟨-, kept⟩ | ⟨mid, change, kept, last, ends⟩ := kept_until_registry plain outside apart h
  · exact kept
  · cases change with
    | ok => cases ends
    | error e =>
      obtain ⟨here, disk⟩ := options.perform_updateRegistry_error last
      exact kept.trans ⟨here, fun place _ => .inl (disk ▸ rfl)⟩

end

section

variable (plain : options.scaffolder = none) (hext : '/' ∉ options.settings.extension.toList)

include plain hext

/-- A turn that fails has touched nothing but the folder of its entity. -/
lemma kept_outside_of_error {e : Failure}
    (h : perform s (options.generate schema requested).run m = (.error e, m')) :
    Kept (fun place => (Entity.find? schema requested).isSome →
      ¬ placeOf m.here (options.entityFolder ⟨requested⟩) <+: place) m m' := by
  refine kept_of_generate_error plain (fun found place keep => keep found)
    (fun found path mem keep => ?_) h
  exact keep found (prefix_of_mem_filesOf (Entity.isWord_of_isSome found) hext m.here path mem)

/-- A turn touches nothing but the folder of its entity and the registry. -/
lemma kept_of_generate {result : Except Failure Report}
    (h : perform s (options.generate schema requested).run m = (result, m')) :
    Kept (fun place => ((Entity.find? schema requested).isSome →
      ¬ placeOf m.here (options.entityFolder ⟨requested⟩) <+: place) ∧
        place ≠ placeOf m.here options.registry) m m' := by
  cases declared : Entity.find? schema requested with
  | none =>
    rw [generate, declared] at h
    cases h
    exact .refl m
  | some entity =>
    obtain ⟨same, word⟩ := Entity.isWord_of_find? declared
    rw [same] at word
    have spares := @spares_of_allows m.here (options.entityFolder ⟨requested⟩)
      (options.registry :: options.filesOf ⟨requested⟩) (options.scaffolder ≠ none)
      (fun place => ((some entity).isSome →
        ¬ placeOf m.here (options.entityFolder ⟨requested⟩) <+: place) ∧
          place ≠ placeOf m.here options.registry) (not_not_intro plain)
      (fun place keep => keep.1 rfl) ?_
    · have all : (options.generate schema requested).All _ :=
        ⟨(options.all_generate schema requested).action.mono spares⟩
      have kept := Machine.kept_perform s all
      rwa [h] at kept
    · intro path mem keep
      obtain rfl | mem := List.mem_cons.mp mem
      · exact keep.2 rfl
      · exact keep.1 rfl (prefix_of_mem_filesOf word hext m.here path mem)

end

/-! ### The registry and the files in the course of a run -/

/-- The text of the registry, if it has one. -/
def registryText (options : Options) (m : Machine) : Option String :=
  match m.disk.get? (placeOf m.here options.registry) with
  | some (.file (.text text)) => some text
  | _ => none

/-- Whether the files of an entity are there, just as they are rendered. -/
def Written (options : Options) (schema : String) (m : Machine) (requested : String) : Prop :=
  ∃ entity artifacts, Entity.find? schema requested = some entity ∧
    entity.artifacts options.settings = .ok artifacts ∧
    ∀ artifact ∈ artifacts, m.disk.get? (placeOf m.here
      (Path.join options.outputFolder artifact.path)) = some (.file (.text artifact.content))

/-- The registry has a text if there is a file with it. -/
lemma registryText_eq_some {text : String} : options.registryText m = some text ↔
    m.disk.get? (placeOf m.here options.registry) = some (.file (.text text)) := by
  rw [registryText]
  split
  · rename_i found
    rw [found]
    simp
  · rename_i other
    exact iff_of_false nofun fun found => other text found

/-- The text of the registry depends on nothing but its place. -/
lemma registryText_congr {n : Machine} (here : n.here = m.here)
    (same : n.disk.get? (placeOf m.here options.registry) =
      m.disk.get? (placeOf m.here options.registry)) :
    options.registryText n = options.registryText m := by
  rw [registryText, here, same]
  rfl

/-- The registry has its text as long as its place is kept. -/
lemma registryText_of_kept {keep : Location → Prop} (kept : Kept keep m m')
    (mem : keep (placeOf m.here options.registry)) :
    options.registryText m' = options.registryText m := by
  ext text
  rw [registryText_eq_some, registryText_eq_some, kept.1]
  exact kept.file_iff mem

/-- A turn registers its entity in what was there as the registry. -/
lemma Turn.registers {report : Report} (t : options.Turn s schema requested report m m')
    (hext : '/' ∉ options.settings.extension.toList)
    (outside : ¬ placeOf m.here (options.entityFolder ⟨requested⟩) <+:
      placeOf m.here options.registry) :
    options.registryText m = some t.document ∧
      options.registryText m' = some t.registration.document ∧
      ∀ names, Registry.registerAll? options.importRoot t.document (⟨requested⟩ :: names) =
        Registry.registerAll? options.importRoot t.registration.document names := by
  rw [registryText_eq_some, registryText_eq_some, t.here, t.shows, if_pos rfl]
  refine ⟨t.document_at hext (t.entity_name_eq ▸ outside), rfl, fun names => ?_⟩
  exact Registry.registerAll?_cons (t.entity_name_eq ▸ t.registered) names

/-- The folders of two entities with different slugs lie side by side. -/
lemma not_prefix_of_slug_ne {name other : EntityName} (word : Schema.IsWord name.source)
    (word' : Schema.IsWord other.source) (ne : name.slug ≠ other.slug) {here place : Location}
    (below : placeOf here (options.entityFolder name) <+: place) :
    ¬ placeOf here (options.entityFolder other) <+: place := by
  intro below'
  rw [options.placeOf_entityFolder word] at below
  rw [options.placeOf_entityFolder word'] at below'
  have same := List.prefix_of_prefix_length_le below below' (by simp)
  have same := same.eq_of_length (by simp)
  rw [List.append_cancel_left_eq, List.cons.injEq] at same
  exact ne same.1

/-- Files stay if all that is in the folder of the entity is kept. -/
lemma Written.kept {keep : Location → Prop} (hext : '/' ∉ options.settings.extension.toList)
    (written : options.Written schema m requested) (kept : Kept keep m m')
    (keeps : ∀ place, placeOf m.here (options.entityFolder ⟨requested⟩) <+: place → keep place) :
    options.Written schema m' requested := by
  obtain ⟨entity, artifacts, declared, rendered, files⟩ := written
  obtain ⟨same, word⟩ := Entity.isWord_of_find? declared
  refine ⟨entity, artifacts, declared, rendered, fun artifact mem => ?_⟩
  rw [kept.1]
  refine (kept.file_iff (keeps _ ?_)).mpr (files artifact mem)
  rw [← same]
  exact prefix_of_mem_filesOf word hext m.here _ (join_mem_filesOf word rendered artifact mem)

/-- Whether a place is neither in the folder of an entity nor that of the registry. -/
def Elsewhere (options : Options) (schema : String) (names : List String) (here place : Location) :
    Prop :=
  (∀ name ∈ names, (Entity.find? schema name).isSome →
    ¬ placeOf here (options.entityFolder ⟨name⟩) <+: place) ∧
  place ≠ placeOf here options.registry

section

variable (plain : options.scaffolder = none) (hext : '/' ∉ options.settings.extension.toList)

include plain hext

/-- Turns touch nothing elsewhere. -/
lemma Turns.kept {names : List String} {result : Except Failure (List Outcome)}
    (turns : options.Turns s schema names m result m') :
    Kept (options.Elsewhere schema names m.here) m m' := by
  induction turns with
  | nil => exact .refl _
  | stop turn =>
    exact (kept_of_generate plain hext turn).mono fun place keep =>
      ⟨keep.1 _ List.mem_cons_self, keep.2⟩
  | @next requested rest m mid m' result more turn _ _ ih =>
    have first := kept_of_generate plain hext turn
    have here := first.1
    have first : Kept (options.Elsewhere schema (requested :: rest) m.here) m mid :=
      first.mono fun place keep => ⟨keep.1 _ List.mem_cons_self, keep.2⟩
    refine first.trans (ih.mono ?_)
    rw [Machine.here_tell, here]
    exact fun place keep => ⟨fun name mem => keep.1 name (.tail _ mem), keep.2⟩

/-- Whatever fails in the course of turns, the entities that they register have their files. -/
lemma Turns.registered {names : List String} {result : Except Failure (List Outcome)}
    (turns : options.Turns s schema names m result m')
    (nodup : (names.map fun name => EntityName.slug ⟨name⟩).Nodup)
    (outside : ∀ name ∈ names, (Entity.find? schema name).isSome →
      ¬ placeOf m.here (options.entityFolder ⟨name⟩) <+: placeOf m.here options.registry) :
    ∃ done : List String, done.Sublist names ∧
      options.registryText m' = (options.registryText m).bind
        (Registry.registerAll? options.importRoot · (done.map EntityName.mk)) ∧
      ∀ name ∈ done, options.Written schema m' name := by
  induction turns with
  | @nil m =>
    refine ⟨[], .slnil, ?_, by simp⟩
    cases options.registryText m <;> rfl
  | @stop requested rest m m' e turn =>
    have kept := kept_outside_of_error plain hext turn
    refine ⟨[], List.nil_sublist _, ?_, by simp⟩
    rw [registryText_of_kept kept (outside requested List.mem_cons_self), List.map_nil]
    change options.registryText m = _
    cases options.registryText m <;> rfl
  | @next requested rest m mid m' result more turn _ turns ih =>
    obtain ⟨fresh, nodup⟩ := List.nodup_cons.mp nodup
    obtain ⟨first, others⟩ := List.forall_mem_cons.mp outside
    have here := (kept_of_generate plain hext turn).1
    rw [Machine.here_tell] at here
    obtain ⟨done, sub, registry, written⟩ := ih nodup (here ▸ others)
    cases result with
    | error e =>
      have kept := kept_outside_of_error plain hext turn
      have same : options.registryText mid = options.registryText m :=
        registryText_of_kept kept first
      exact ⟨done, sub.cons _, registry.trans (congrArg (·.bind
        (Registry.registerAll? options.importRoot · (done.map EntityName.mk))) same), written⟩
    | ok report =>
      obtain ⟨t⟩ := options.exists_turn plain hext turn
      have name := t.entity_name_eq
      have apart := first t.isSome_find?
      refine ⟨requested :: done, sub.cons_cons _, ?_, List.forall_mem_cons.mpr ⟨?_, written⟩⟩
      · obtain ⟨before, after, both⟩ := t.registers hext apart
        change options.registryText m = _ at before
        rw [registry, before, List.map_cons, Option.bind_some, both]
        change (options.registryText mid).bind _ = _
        rw [after, Option.bind_some]
      · have there : options.Written schema mid requested := by
          refine ⟨t.entity, t.filling.artifacts, t.declared, t.filling.rendered, fun artifact mem => ?_⟩
          rw [here]
          exact t.artifact_at hext (name ▸ apart) mem
        refine there.kept hext (turns.kept plain hext) fun place below =>
          ⟨fun other mem found => ?_, ?_⟩
        · have word := Entity.isWord_of_isSome found
          refine not_prefix_of_slug_ne t.word word (fun e => fresh ?_) below
          exact List.mem_map.mpr ⟨other, mem, e.symm⟩
        · rintro rfl
          exact apart (here ▸ below)

end

/-- However a run ends and whatever fails in it, what it has done to the registry is to register some
of its entities, in their order, and all of these have their files. -/
theorem run_registered (plain : options.scaffolder = none)
    (hext : '/' ∉ options.settings.extension.toList) {target : Target}
    {result : Except Failure Summary}
    (distinct : ∀ schema names, m.disk.readText m.here options.schema = .ok schema →
      target.names schema = .ok names →
        (names.map fun name => EntityName.slug ⟨name⟩).Nodup ∧
        ∀ name ∈ names, (Entity.find? schema name).isSome →
          ¬ placeOf m.here (options.entityFolder ⟨name⟩) <+: placeOf m.here options.registry)
    (h : perform s (options.run target).run m = (result, m')) :
    ∃ done : List String,
      (∀ schema names, m.disk.readText m.here options.schema = .ok schema →
        target.names schema = .ok names → done.Sublist names) ∧
      options.registryText m' = (options.registryText m).bind
        (Registry.registerAll? options.importRoot · (done.map EntityName.mk)) ∧
      ∀ name ∈ done, ∃ schema, m.disk.readText m.here options.schema = .ok schema ∧
        options.Written schema m' name := by
  obtain ⟨disk, here, -⟩ | ⟨schema, names, begun, outcomes, read, resolved, disk, here, turns, -⟩ :=
    turns_of_run h
  · refine ⟨[], fun _ names _ _ => List.nil_sublist names, ?_, by simp⟩
    rw [registryText, disk, here]
    change options.registryText m = _
    cases options.registryText m <;> rfl
  · obtain ⟨nodup, outside⟩ := distinct schema names read resolved
    obtain ⟨done, sub, registry, written⟩ :=
      turns.registered plain hext nodup (here ▸ outside)
    refine ⟨done, fun schema' names' read' resolved' => ?_, ?_, fun name mem =>
      ⟨schema, read, written name mem⟩⟩
    · rw [read] at read'
      cases read'
      rw [resolved] at resolved'
      cases resolved'
      exact sub
    · rw [registry, registryText, disk, here]
      rfl

/-- A schema with two models. -/
def twoModels : String :=
  "model User \x7b id Int \x7d model Post \x7b \x7d"

/-- A project with that schema. -/
def two : Disk :=
  ⟨[(["prisma"], .folder),
    (["prisma", "schema.prisma"], .file (.text twoModels)),
    (["src"], .folder), (["src", "shared"], .folder),
    (["src", "shared", "app.module.ts"], .file (.text "imports: []\n"))]⟩

/-- Surroundings in which one operation fails. -/
def failing (operation : Nat) : Surroundings :=
  ⟨fun _ _ disk => ⟨.ok (), "", "", disk⟩,
    fun n => if n = operation then some .denied else none, fun _ _ => false, fun _ => 0⟩

/-- The second of two turns fails between two of its files. -/
theorem run_registered_of_fault :
    ∃ result m', ∃ done : List String,
      perform (failing 21) (({} : Options).run .all).run ⟨two, [], 0, [], []⟩ = (result, m') ∧
      result.isOk = false ∧ done.Sublist ["User", "Post"] ∧
      ({} : Options).registryText m' = Registry.registerAll? "../modules" "imports: []\n"
        (done.map EntityName.mk) ∧
      ∀ name ∈ done, ({} : Options).Written twoModels m' name := by
  have extension : '/' ∉ ({} : Options).settings.extension.toList := by simp
  have read : two.readText [] ({} : Options).schema = .ok twoModels := by decide +kernel
  have resolved : Target.all.names twoModels = .ok ["User", "Post"] := by decide +kernel
  have apart : (["User", "Post"].map fun name => EntityName.slug ⟨name⟩).Nodup ∧
      ∀ name ∈ ["User", "Post"], ¬ placeOf [] (({} : Options).entityFolder ⟨name⟩) <+:
        placeOf [] ({} : Options).registry := by decide +kernel
  have ends : (perform (failing 21) (({} : Options).run .all).run ⟨two, [], 0, [], []⟩).1.isOk =
      false := by decide +kernel
  generalize run : perform (failing 21) (({} : Options).run .all).run ⟨two, [], 0, [], []⟩ =
    taken at *
  obtain ⟨result, m'⟩ := taken
  have begins : ({} : Options).registryText ⟨two, [], 0, [], []⟩ = some "imports: []\n" := by
    decide +kernel
  obtain ⟨done, sub, registry, written⟩ := run_registered rfl extension
    (fun schema names read' resolved' => by
      rw [read] at read'
      cases read'
      rw [resolved] at resolved'
      cases resolved'
      exact ⟨apart.1, fun name mem _ => apart.2 name mem⟩) run
  refine ⟨result, m', done, rfl, ends, sub _ _ read resolved, ?_, fun name mem => ?_⟩
  · rw [registry, begins]
    rfl
  · obtain ⟨schema, read', files⟩ := written name mem
    rw [read] at read'
    cases read'
    exact files

end EntityForge.Run.Options

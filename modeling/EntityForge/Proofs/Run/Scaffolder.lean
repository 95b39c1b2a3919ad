import EntityForge.Proofs.Artifact
import EntityForge.Proofs.Run.Course
import EntityForge.Proofs.Run.Discovery
import EntityForge.Proofs.Run.Repetition
import Mathlib

/-!
# Turns with a scaffolder

The programs of a scaffolder run in the middle of a turn and may do anything to the disk. They do so
in a folder that is new, one kind after the other, and the first of them that fails ends the turn.
What they leave behind does not matter to the artifacts, which are written after them.
-/

namespace EntityForge.Run

open Disk (placeOf)
open Machine (perform Passes)
open Course (IsQuiet)

variable {s : Surroundings} {m m' : Machine} {log : List Exchange}

/-! ### Programs -/

/-- The exchange in which a scaffolder runs its program for a kind. -/
def Scaffolder.exchange (scaffolder : Scaffolder) (folder slug kind : String)
    (reply : Except CommandFault Unit) : Exchange :=
  ⟨.launch ⟨folder, scaffolder.command ++ [kind, slug]⟩, reply⟩

/-- The failure of a scaffolder whose program fails for a kind. -/
def Scaffolder.failure (scaffolder : Scaffolder) (slug kind : String) (fault : CommandFault) :
    Failure :=
  .command (" ".intercalate (scaffolder.command ++ [kind, slug])) fault

/-- A scaffolder runs its program for all kinds in their order, or up to the first one for which it
fails. -/
lemma Course.scaffold_cases {scaffolder : Scaffolder} {folder slug : String} {kinds : List String}
    {outcome : Except Failure Unit}
    (h : Course s (scaffold folder scaffolder.command slug kinds).run m log outcome m') :
    (log = kinds.map (scaffolder.exchange folder slug · (.ok ())) ∧ outcome = .ok ()) ∨
      ∃ before kind more fault, kinds = before ++ kind :: more ∧
        log = before.map (scaffolder.exchange folder slug · (.ok ())) ++
          [scaffolder.exchange folder slug kind (.error fault)] ∧
        outcome = .error (scaffolder.failure slug kind fault) := by
  induction kinds generalizing m log with
  | nil =>
    cases h
    exact .inl ⟨rfl, rfl⟩
  | cons kind kinds ih =>
    rw [scaffold] at h
    obtain ⟨reply, mid, rest, later, rfl⟩ := of_ask id (of_note h)
    cases reply with
    | ok =>
      obtain ⟨rfl, rfl⟩ | ⟨before, failed, more, fault, rfl, rfl, rfl⟩ := ih later
      · exact .inl ⟨rfl, rfl⟩
      · exact .inr ⟨kind :: before, failed, more, fault, rfl, rfl, rfl⟩
    | error fault =>
      cases later
      exact .inr ⟨[], kind, kinds, fault, rfl, rfl, rfl⟩

/-! ### The folder of the entity -/

/-- Whether a request has to do with renewing a folder. -/
def Renews (folder : String) : Request → Prop
  | .isPresent path => path = folder
  | .removeTree path => path = folder
  | .makeFolders path => path = folder
  | _ => False

/-- A folder is renewed without programs, and it is the only one to fail. -/
lemma Course.of_renewFolder {folder : String} {outcome : Except Failure Unit}
    (h : Course s (renewFolder folder).run m log outcome m') :
    perform s (renewFolder folder).run m = (outcome, m') ∧ (∀ x ∈ log, Renews folder x.request) ∧
      ∀ e, outcome = .error e → ∃ cause, e = .system folder cause := by
  have quiet : (renewFolder folder).All IsQuiet :=
    all_renewFolder (fun _ _ => nofun) (fun _ => nofun) (fun _ => nofun) fun _ => nofun
  have done := perform_eq quiet.action h
  have renews : (renewFolder folder).All fun r => r.IsNote ∨ Renews folder r :=
    all_renewFolder (fun _ => .inl trivial) (.inr rfl) (.inr rfl) (.inr rfl)
  refine ⟨done, fun x mem => ?_, ?_⟩
  · obtain ⟨renews, noted⟩ := forall_of_all renews.action h x mem
    exact renews.resolve_left noted
  · rintro e rfl
    have raises : (renewFolder folder).Raises fun e => ∃ cause, e = .system folder cause :=
      raises_renewFolder fun cause => ⟨cause, rfl⟩
    exact raises.perform done

/-! ### Files that are read again -/

/-- A text that was written to a file is read there. -/
lemma readText_of_writeFile {path text : String}
    (h : perform s (writeFile path text).run m = (.ok (), m')) :
    m'.here = m.here ∧ m'.disk.readText m.here path = .ok text := by
  have here := Machine.here_perform s (writeFile path text).run m
  rw [h] at here
  refine ⟨here, ?_⟩
  have written {n : Machine} (place : n.here = m.here)
      (h : perform s (Job.writeText path text).run n = (.ok (), m')) :
      m'.disk.readText m.here path = .ok text := by
    obtain ⟨-, disk, wrote, rfl⟩ := Machine.perform_writeText_ok.mp h
    exact place ▸ Disk.readText_of_writeText wrote
  rw [writeFile] at h
  cases above : Path.parent? path with
  | none =>
    rw [above] at h
    exact written (by rfl) h
  | some folder =>
    rw [above] at h
    obtain ⟨_, mid, made, h⟩ := Machine.perform_bind_ok.mp h
    obtain ⟨-, -, rfl⟩ := Machine.perform_makeFolders_ok.mp made
    exact written (by rfl) h

namespace Options

variable (options : Options)

/-- Artifacts that were written to places of their own are read there. -/
lemma readText_of_writeArtifacts {artifacts : List Artifact} {files : List (String × String)}
    (nodup : (artifacts.map fun a => placeOf m.here (Path.join options.outputFolder a.path)).Nodup)
    (h : perform s (options.writeArtifacts artifacts).run m = (.ok files, m')) :
    files = artifacts.map (fun a => (Path.join options.outputFolder a.path, a.description)) ∧
      m'.here = m.here ∧ ∀ a ∈ artifacts,
        m'.disk.readText m.here (Path.join options.outputFolder a.path) = .ok a.content := by
  induction artifacts generalizing m files with
  | nil =>
    cases h
    exact ⟨rfl, rfl, by simp⟩
  | cons artifact rest ih =>
    obtain ⟨apart, nodup⟩ := List.nodup_cons.mp nodup
    obtain ⟨_, mid, wrote, h⟩ := Machine.perform_bind_ok.mp h
    obtain ⟨_, _, note, h⟩ := Machine.perform_bind_ok.mp h
    obtain ⟨more, _, others, h⟩ := Machine.perform_bind_ok.mp h
    cases h
    rw [Machine.perform_note] at note
    obtain ⟨-, rfl⟩ := Prod.mk.inj note
    obtain ⟨here, first⟩ := readText_of_writeFile wrote
    obtain ⟨rfl, last, reads⟩ := ih (by rwa [Machine.here_note, here]) others
    rw [Machine.here_note, here] at last reads
    refine ⟨rfl, last, List.forall_mem_cons.mpr ⟨?_, reads⟩⟩
    -- The other artifacts are written elsewhere.
    have passes : (options.writeArtifacts rest).All
        (Passes m.here (Path.join options.outputFolder artifact.path)) := by
      refine options.all_writeArtifacts (fun _ => trivial) fun a mem => ?_
      refine all_writeFile (fun _ _ => trivial) fun same => apart ?_
      exact List.mem_map.mpr ⟨a, mem, same⟩
    rw [← here] at passes first ⊢
    rw [← Machine.here_note mid] at passes first ⊢
    exact Machine.readText_perform passes first others

/-! ### The turn -/

variable {options} in
/-- A turn goes on with what was rendered, and there is no trace of the rendering. -/
lemma of_render {entity : Entity} {artifacts : List Artifact}
    (rendered : entity.artifacts options.settings = .ok artifacts) {β : Type}
    {f : List Artifact → Job β} {result : Except Failure β}
    (h : Course s (options.render entity >>= f).run m log result m') :
    ∃ begun : Machine, begun.disk = m.disk ∧ begun.here = m.here ∧
      Course s (f artifacts).run begun log result m' := by
  obtain ⟨begun, done⟩ := exists_render rendered s m
  obtain ⟨-, same⟩ := options.perform_render_ok done
  have quiet : (options.render entity).All IsQuiet := options.all_render (fun _ _ => nofun) entity
  have silent : (options.render entity).All Request.IsNote :=
    options.all_render (fun _ => trivial) entity
  obtain ⟨e, -, course⟩ | ⟨first, a, mid, second, course, later, rfl⟩ := Course.of_bind_job h
  · have failed := Course.perform_eq quiet.action course
    rw [done] at failed
    cases failed
  · have taken := Course.perform_eq quiet.action course
    rw [done] at taken
    cases taken
    have nothing : first = [] := List.eq_nil_iff_forall_not_mem.mpr fun x mem =>
      (Course.forall_of_all silent.action course x mem).2
        (Course.forall_of_all silent.action course x mem).1
    rw [nothing]
    exact ⟨begun, same.1, same.2, later⟩

/-- The steps of a turn after the scaffolder run no program. -/
lemma quiet_finish {artifacts : List Artifact} (name : EntityName) :
    Job.All IsQuiet (do
      let controller ← options.writeController name
      let files ← options.writeArtifacts artifacts
      let registry ← options.updateRegistry name
      return ⟨name, files, controller, registry⟩ : Job Report) := by
  have writes (path text : String) : (writeFile path text).All IsQuiet :=
    all_writeFile (fun _ _ _ => nofun) fun _ => nofun
  apply (options.all_writeController name (fun _ _ => nofun)
    (fun _ _ => ⟨fun _ => nofun, fun _ => nofun⟩) fun _ => writes _ _).bind
  intro controller
  apply (options.all_writeArtifacts (fun _ _ => nofun) fun _ _ => writes _ _).bind
  intro files
  apply (options.all_updateRegistry name (fun _ _ => nofun) (fun _ => nofun) fun _ _ => nofun).bind
  exact fun registry => Job.all_pure _

/-- If the steps after the scaffolder succeed, the artifacts are where the report says. -/
lemma readText_of_finish {artifacts : List Artifact} {name : EntityName} {report : Report}
    (nodup : (artifacts.map fun a => placeOf m.here (Path.join options.outputFolder a.path)).Nodup)
    (apart : ∀ a ∈ artifacts, placeOf m.here options.registry ≠
      placeOf m.here (Path.join options.outputFolder a.path))
    (h : perform s (do
      let controller ← options.writeController name
      let files ← options.writeArtifacts artifacts
      let registry ← options.updateRegistry name
      return ⟨name, files, controller, registry⟩ : Job Report).run m = (.ok report, m')) :
    report.files = artifacts.map (fun a => (Path.join options.outputFolder a.path, a.description)) ∧
      ∀ a ∈ artifacts,
        m'.disk.readText m.here (Path.join options.outputFolder a.path) = .ok a.content := by
  obtain ⟨controller, mid, filled, h⟩ := Machine.perform_bind_ok.mp h
  obtain ⟨files, written, wrote, h⟩ := Machine.perform_bind_ok.mp h
  obtain ⟨registry, last, update, h⟩ := Machine.perform_bind_ok.mp h
  cases h
  have here := Machine.here_perform s (options.writeController name).run m
  rw [filled] at here
  change mid.here = m.here at here
  rw [← here] at nodup apart ⊢
  obtain ⟨files_eq, place, reads⟩ := options.readText_of_writeArtifacts nodup wrote
  refine ⟨files_eq, fun a mem => ?_⟩
  have passes : (options.updateRegistry name).All
      (Passes mid.here (Path.join options.outputFolder a.path)) :=
    options.all_updateRegistry name (fun _ => trivial) trivial fun _ => apart a mem
  have read := reads a mem
  rw [← place] at passes read ⊢
  exact Machine.readText_perform passes read update

/-- A scaffolder has its programs write, and writes nothing itself. -/
lemma all_runScaffolder_ne_writeText (name : EntityName) :
    (options.runScaffolder name).All fun r => ∀ path text, r ≠ .writeText path text :=
  options.all_runScaffolder name (fun _ _ _ => nofun) fun _ _ _ _ => nofun

/-- The scaffolder of an entity runs its program for all kinds, and then the turn goes on; or it
fails for one of them, and that is the end of the turn. -/
lemma of_runScaffolder {scaffolder : Scaffolder} (chosen : options.scaffolder = some scaffolder)
    (command : scaffolder.command ≠ []) {name : EntityName} {f : Unit → Job Report}
    {result : Except Failure Report}
    (h : Course s (options.runScaffolder name >>= f).run m log result m') :
    (∃ before kind more fault, scaffolder.kinds = before ++ kind :: more ∧
        log = before.map (scaffolder.exchange options.outputFolder name.slug · (.ok ())) ++
          [scaffolder.exchange options.outputFolder name.slug kind (.error fault)] ∧
        Course s (options.runScaffolder name).run m log
          (.error (scaffolder.failure name.slug kind fault)) m' ∧
        result = .error (scaffolder.failure name.slug kind fault)) ∨
      ∃ programs after rest, log = programs ++ rest ∧
        programs =
          scaffolder.kinds.map (scaffolder.exchange options.outputFolder name.slug · (.ok ())) ∧
        Course s (options.runScaffolder name).run m programs (.ok ()) after ∧
        Course s (f ()).run after rest result m' := by
  have scaffolds : options.runScaffolder name =
      scaffold options.outputFolder scaffolder.command name.slug scaffolder.kinds := by
    rw [runScaffolder, chosen]
    simp [command]
  rw [scaffolds] at h ⊢
  obtain ⟨e, rfl, course⟩ | ⟨programs, _, after, rest, course, later, rfl⟩ := Course.of_bind_job h
  · obtain ⟨-, same⟩ | ⟨before, kind, more, fault, kinds, shown, same⟩ :=
      Course.scaffold_cases course
    · cases same
    · cases same
      exact .inl ⟨before, kind, more, fault, kinds, shown, course, rfl⟩
  · obtain ⟨shown, -⟩ | ⟨_, _, _, _, -, -, same⟩ := Course.scaffold_cases course
    · exact .inr ⟨programs, after, rest, rfl, shown, course, later⟩
    · cases same

/-- A turn with a scaffolder, whatever its programs do to the disk. If the folder of the entity
cannot be renewed, no program is run. Otherwise the program is run for the kinds in their order,
from the disk with the new folder on and before anything is written. The first time that it fails is
the end of the turn: nothing has been written, nothing is asked for after that, and the failure is
that of the command. If it does not fail, no program is run any more, and a turn that succeeds leaves
all artifacts as they were rendered at the paths that it reports. -/
theorem generate_scaffolded {scaffolder : Scaffolder}
    (chosen : options.scaffolder = some scaffolder) (command : scaffolder.command ≠ [])
    (hext : '/' ∉ options.settings.extension.toList)
    {schema requested : String} {entity : Entity}
    (declared : Entity.find? schema requested = some entity)
    (apart : ∀ artifacts, entity.artifacts options.settings = .ok artifacts → ∀ a ∈ artifacts,
      placeOf m.here options.registry ≠ placeOf m.here (Path.join options.outputFolder a.path))
    {result : Except Failure Report}
    (h : Course s (options.generate schema requested).run m log result m') :
    ∃ artifacts, entity.artifacts options.settings = .ok artifacts ∧
      (((∃ cause, result = .error (.system (options.entityFolder entity.name) cause)) ∧
          ∀ x ∈ log, Renews (options.entityFolder entity.name) x.request) ∨
        ∃ found emptied, ∃ opening programs rest : List Exchange,
          log = opening ++ (programs ++ rest) ∧
          (∀ x ∈ opening, Renews (options.entityFolder entity.name) x.request) ∧
          Renewed (options.entityFolder entity.name) found m emptied ∧
          (s.Faultless →
            found = (m.disk.find? m.here (options.entityFolder entity.name)).isSome) ∧
          ((∃ before kind more fault, scaffolder.kinds = before ++ kind :: more ∧
              programs = before.map
                  (scaffolder.exchange options.outputFolder entity.name.slug · (.ok ())) ++
                [scaffolder.exchange options.outputFolder entity.name.slug kind (.error fault)] ∧
              Course s (options.runScaffolder entity.name).run emptied programs
                (.error (scaffolder.failure entity.name.slug kind fault)) m' ∧
              rest = [] ∧ (∀ x ∈ log, ∀ path text, x.request ≠ .writeText path text) ∧
              result = .error (scaffolder.failure entity.name.slug kind fault)) ∨
            ∃ after,
              programs = scaffolder.kinds.map
                (scaffolder.exchange options.outputFolder entity.name.slug · (.ok ())) ∧
              Course s (options.runScaffolder entity.name).run emptied programs (.ok ()) after ∧
              (∀ x ∈ rest, IsQuiet x.request) ∧
              ∀ report, result = .ok report →
                report.files =
                  artifacts.map (fun a => (Path.join options.outputFolder a.path, a.description)) ∧
                ∀ a ∈ artifacts, m'.disk.readText m'.here
                  (Path.join options.outputFolder a.path) = .ok a.content)) := by
  obtain ⟨-, word⟩ := Entity.isWord_of_find? declared
  have ends := options.endsNamed_entityFolder word
  obtain ⟨_, _, _, _, _, -, -, rendered, -⟩ := entity.exists_artifacts options.settings
  refine ⟨_, rendered, ?_⟩
  have apart := apart _ rendered
  have nodup := options.nodup_placeOf_artifacts word rendered hext m.here
  rw [generate, declared] at h
  obtain ⟨begun, disk, here, h⟩ := of_render rendered h
  replace h := Course.of_note h
  obtain ⟨e, rfl, renewal⟩ | ⟨opening, _, emptied, rest, renewal, later, rfl⟩ :=
    Course.of_bind_job h
  · obtain ⟨-, renews, fails⟩ := Course.of_renewFolder renewal
    obtain ⟨cause, rfl⟩ := fails e rfl
    exact .inl ⟨⟨cause, rfl⟩, renews⟩
  obtain ⟨done, renews, -⟩ := Course.of_renewFolder renewal
  have renewed := (perform_renewFolder_ok ends.ne_empty
    (options.placeOf_entityFolder_ne_nil word _) done).congr disk here
  rw [Machine.disk_note, Machine.here_note, disk, here] at renewed
  obtain ⟨before, kind, more, fault, kinds, rfl, course, rfl⟩ |
    ⟨programs, after, rest, rfl, same, course, finish⟩ :=
      options.of_runScaffolder chosen command later
  · refine .inr ⟨_, emptied, opening, _, [], ?_, renews, renewed,
      fun faultless => Machine.looking_fst _ (faultless _) _,
      .inl ⟨before, kind, more, fault, kinds, rfl, course, rfl, ?_, rfl⟩⟩
    · rw [List.append_nil]
    · intro x mem path text writes
      obtain mem | mem := List.mem_append.mp mem
      · have renews := renews x mem
        rw [writes] at renews
        exact renews
      · have launches := options.all_runScaffolder_ne_writeText entity.name
        exact (Course.forall_of_all launches.action course x mem).1 path text writes
  · refine .inr ⟨_, emptied, opening, programs, rest, rfl, renews, renewed,
      fun faultless => Machine.looking_fst _ (faultless _) _, .inr ⟨after, same, course, ?_, ?_⟩⟩
    · intro x mem
      exact (Course.forall_of_all (options.quiet_finish entity.name).action finish x mem).1
    · rintro report rfl
      have place := course.here_eq.trans renewed.here
      rw [← place] at nodup apart
      rw [finish.here_eq]
      exact options.readText_of_finish nodup apart
        (Course.perform_eq (options.quiet_finish entity.name).action finish)

/-- Options with a scaffolder for services. -/
def withServices : Options :=
  { scaffolder := some ⟨["gen"], ["service"]⟩ }

/-- Surroundings in which a program writes a skeleton where the service of a user will be. -/
def sketching : Surroundings :=
  ⟨fun _ _ disk => ⟨.ok (), "", "", disk.put ["src", "modules", "user", "user.service.ts"]
    (.file (.text "export class UserService \x7b\x7d"))⟩,
    fun _ => none, fun _ _ => false, fun _ => 0⟩

/-- The skeleton of a service is written over. -/
theorem generate_scaffolded_user :
    ∃ report m' artifacts, perform sketching (withServices.generate "model User \x7b id Int \x7d"
        "uSER").run ⟨earlier, [], 0, [], []⟩ = (.ok report, m') ∧
      (⟨⟨"uSER"⟩, "id Int"⟩ : Entity).artifacts {} = .ok artifacts ∧
      ∀ a ∈ artifacts,
        m'.disk.readText m'.here (Path.join "src/modules" a.path) = .ok a.content := by
  have declared : Entity.find? "model User \x7b id Int \x7d" "uSER" =
      some ⟨⟨"uSER"⟩, "id Int"⟩ := by decide +kernel
  have apart : ∀ artifacts, (⟨⟨"uSER"⟩, "id Int"⟩ : Entity).artifacts withServices.settings =
      .ok artifacts → ∀ a ∈ artifacts, placeOf [] withServices.registry ≠
        placeOf [] (Path.join withServices.outputFolder a.path) := by
    intro artifacts rendered a mem same
    have files : Path.join withServices.outputFolder a.path ∈ withServices.filesOf ⟨"uSER"⟩ :=
      join_mem_filesOf (by decide +kernel) rendered a mem
    have others : ∀ path ∈ withServices.filesOf ⟨"uSER"⟩,
        placeOf [] path ≠ placeOf [] withServices.registry := by decide +kernel
    exact others _ files same.symm
  have ends : (perform sketching (withServices.generate "model User \x7b id Int \x7d" "uSER").run
      ⟨earlier, [], 0, [], []⟩).1.isOk = true := by decide +kernel
  obtain ⟨log, course⟩ := Course.of_perform sketching
    (withServices.generate "model User \x7b id Int \x7d" "uSER").run ⟨earlier, [], 0, [], []⟩
  obtain ⟨artifacts, rendered, turn⟩ := withServices.generate_scaffolded rfl
    (List.cons_ne_nil _ _) (by simp [withServices]) declared apart course
  generalize perform sketching (withServices.generate "model User \x7b id Int \x7d" "uSER").run
    ⟨earlier, [], 0, [], []⟩ = taken at *
  obtain ⟨result, m'⟩ := taken
  cases result with
  | error e => cases ends
  | ok report =>
    obtain ⟨⟨_, failed⟩, -⟩ | ⟨_, _, _, _, _, -, -, -, -, ⟨_, _, _, _, -, -, -, -, -, failed⟩ |
      ⟨_, -, -, -, files⟩⟩ := turn
    · cases failed
    · cases failed
    · exact ⟨report, m', artifacts, rfl, rendered, (files report rfl).2⟩

end Options

end EntityForge.Run

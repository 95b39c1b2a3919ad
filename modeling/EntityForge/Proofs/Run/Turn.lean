import EntityForge.Proofs.Registry.Registration
import EntityForge.Proofs.Run.Confinement
import EntityForge.Proofs.Run.Machine
import Mathlib

/-!
# The steps of a turn

What each step of a turn leaves on the disk if it succeeds. The files of an entity are laid over the
disk as it was after the folder of the entity was emptied: they and the folders on the way to them
are there, and below them one sees what was there before.
-/

namespace EntityForge.Run

open Disk (placeOf wayOf trailOf folders)
open Machine (perform)

/-! ### Files below a folder -/

/-- What stands at a place after files were written one after the other below a folder. -/
def layout (folder : Location) (files : List (Location × String)) (place : Location) :
    Option Entry :=
  match files.reverse.lookup place with
  | some text => some (.file (.text text))
  | none =>
    if folder <+: place ∧ ∃ file ∈ files, place <+: file.1 then some .folder else none

/-- Nothing is laid out but below the folder. -/
lemma layout_eq_none {folder place : Location} {files : List (Location × String)}
    (below : ∀ file ∈ files, folder <+: file.1) (h : ¬ folder <+: place) :
    layout folder files place = none := by
  have absent : files.reverse.lookup place = none := by
    refine List.lookup_eq_none_iff.mpr fun file mem => bne_iff_ne.mpr ?_
    rintro rfl
    exact h (below file (List.mem_reverse.mp mem))
  rw [layout, absent]
  exact if_neg fun both => h both.1

/-- A file that was written is there, unless another one was written to its place later. -/
lemma layout_of_mem {folder : Location} {before files : List (Location × String)}
    (nodup : (files.map Prod.fst).Nodup) {file : Location × String} (mem : file ∈ files) :
    layout folder (before ++ files) file.1 = some (.file (.text file.2)) := by
  obtain ⟨place, text⟩ := file
  obtain ⟨front, back, rfl⟩ := List.append_of_mem mem
  have later : back.reverse.lookup place = none := by
    refine List.lookup_eq_none_iff.mpr fun other there => bne_iff_ne.mpr fun same => ?_
    rw [List.map_append, List.map_cons, List.nodup_append] at nodup
    exact (List.nodup_cons.mp nodup.2.1).1
      (List.mem_map.mpr ⟨other, List.mem_reverse.mp there, same.symm⟩)
  have found : (before ++ (front ++ (place, text) :: back)).reverse.lookup place = some text := by
    simp [List.lookup_append, later]
  rw [layout, found]

/-- Another file is laid out where it is, with folders on the way to it, and changes nothing else. -/
lemma layout_concat (folder : Location) (files : List (Location × String)) (target : Location)
    (text : String) (place : Location) :
    layout folder (files ++ [(target, text)]) place =
      if place = target then some (.file (.text text))
      else (layout folder files place).or
        (if folder <+: place ∧ place <+: target then some .folder else none) := by
  by_cases here : place = target
  · rw [if_pos here, layout, List.reverse_concat, here, List.lookup_cons_self]
  rw [if_neg here, layout, layout, List.reverse_concat, List.lookup_cons,
    beq_eq_false_iff_ne.mpr here]
  cases files.reverse.lookup place with
  | some _ => rfl
  | none =>
    have passed : (folder <+: place ∧ ∃ file ∈ files ++ [(target, text)], place <+: file.1) ↔
        (folder <+: place ∧ ∃ file ∈ files, place <+: file.1) ∨
          folder <+: place ∧ place <+: target := by
      simp [or_and_right, exists_or, and_or_left]
    simp only [if_congr passed rfl rfl, ite_or]
    split_ifs <;> rfl

variable {s : Surroundings} {m m' : Machine}

/-- A file that was written is there, and so are the folders above it. -/
lemma perform_writeFile_ok {path text folder : String} (parent : Path.parent? path = some folder)
    (ne : folder ≠ "") (h : perform s (writeFile path text).run m = (.ok (), m')) :
    m'.here = m.here ∧
      (∀ place ∈ trailOf m.here folder, ∀ content, m.disk.get? place ≠ some (.file content)) ∧
      m.disk.get? (placeOf m.here path) ≠ some .folder ∧
      ∀ place, m'.disk.get? place =
        if place = placeOf m.here path then some (.file (.text text))
        else (m.disk.get? place).or (folders (trailOf m.here folder) place) := by
  rw [writeFile, parent] at h
  obtain ⟨_, mid, made, written⟩ := Machine.perform_bind_ok.mp h
  obtain ⟨-, free, rfl⟩ := Machine.perform_makeFolders_ok.mp made
  obtain ⟨-, disk, wrote, rfl⟩ := Machine.perform_writeText_ok.mp written
  obtain ⟨-, -, target, rfl⟩ := Disk.writeText_eq_ok.mp wrote
  have made := Disk.get?_makeFolders ne free
  refine ⟨rfl, ((Disk.makeFolders_eq_ok ne).mp free).2.2, fun folder => target ?_, fun place => ?_⟩
  · exact (made (placeOf m.here path)).trans (by rw [folder, Option.some_or])
  · rw [← made]
    exact Disk.get?_put _ _ _ _ (Disk.ne_nil_of_get?_ne target)

/-- Whether a disk shows files below a folder laid over certain entries. No file takes the place of a
folder. -/
def Laid (here : Location) (folder : String) (base : Location → Option Entry)
    (files : List (Location × String)) (m : Machine) : Prop :=
  m.here = here ∧ (∀ file ∈ files, base file.1 ≠ some .folder) ∧
    ∀ place, m.disk.get? place = (layout (placeOf here folder) files place).or (base place)

/-- Where artifacts are written, and what is written there. -/
def Options.placed (options : Options) (here : Location) (artifacts : List Artifact) :
    List (Location × String) :=
  artifacts.map fun a => (placeOf here (Path.join options.outputFolder a.path), a.content)

/-- Where a folder was no file was written, so it is still there. -/
lemma layout_or_eq_folder {base : Location → Option Entry} {files : List (Location × String)}
    (apart : ∀ file ∈ files, base file.1 ≠ some .folder) (above : Location) {place : Location}
    (folder : base place = some .folder) :
    (layout above files place).or (base place) = some .folder := by
  have absent : files.reverse.lookup place = none :=
    List.lookup_eq_none_iff.mpr fun file mem => bne_iff_ne.mpr fun same =>
      apart file (List.mem_reverse.mp mem) (same ▸ folder)
  rw [layout, absent, folder]
  simp only
  split_ifs <;> rfl

section

variable {here : Location} {folder : String} {base : Location → Option Entry}
  {files : List (Location × String)} (ends : Path.EndsNamed folder)
  (way : ∀ place ∈ trailOf here folder, base place = some .folder)

include ends way

/-- The folders that are made on the way to a file are those between the folder and the file; all
others are there. -/
lemma or_folders_below {names : List String} {file : String}
    (named : ∀ name ∈ names, Path.IsName name.toList) {place : Location}
    (ne : place ≠ placeOf here folder ++ (names ++ [file]))
    (free : place ∈ trailOf here (Path.below folder names) →
      ∀ content, base place ≠ some (.file content)) :
    (base place).or (folders (trailOf here (Path.below folder names)) place) =
      (if placeOf here folder <+: place ∧ place <+: placeOf here folder ++ (names ++ [file]) then
        some .folder else none).or (base place) := by
  have trail {place : Location} := @Disk.mem_trailOf_below here _ ends.ne_empty _ named place
  by_cases new : placeOf here folder <+: place ∧ place <+: placeOf here folder ++ (names ++ [file])
  · have passed : place ∈ trailOf here (Path.below folder names) := by
      obtain ⟨⟨front, rfl⟩, before⟩ := new
      rw [List.prefix_append_right_inj, List.prefix_concat_iff] at before
      obtain rfl | before := before
      · exact absurd rfl ne
      · refine trail.mpr ?_
        by_cases ne : front = []
        · exact .inl (Disk.mem_trailOf.mpr (.inr (by rw [ne, List.append_nil])))
        · exact .inr ⟨front, ne, before, rfl⟩
    rw [if_pos new, folders, if_pos passed, Option.some_or]
    cases there : base place with
    | none => rfl
    | some entry =>
      cases entry with
      | folder => rfl
      | file content => exact absurd there (free passed content)
  · rw [if_neg new, Option.none_or, folders]
    split_ifs with passed
    · obtain passed | ⟨front, -, before, rfl⟩ := trail.mp passed
      · rw [way place passed]
        rfl
      · refine absurd ⟨List.prefix_append _ _, ?_⟩ new
        exact (List.prefix_append_right_inj _).mpr (before.trans (List.prefix_append _ _))
    · exact Option.or_none

/-- A further file is laid over the others. -/
lemma Laid.writeFile {names : List String} {file text : String}
    (named : ∀ name ∈ names ++ [file], Path.IsName name.toList)
    (laid : Laid here folder base files m)
    (h : perform s (writeFile (Path.below folder (names ++ [file])) text).run m = (.ok (), m')) :
    Laid here folder base (files ++ [(placeOf here folder ++ (names ++ [file]), text)]) m' := by
  obtain ⟨rfl, apart, shows⟩ := laid
  obtain ⟨above, last⟩ := List.forall_mem_append.mp named
  have inner := ends.below above
  have target := Disk.placeOf_below m.here ends.ne_empty named
  rw [Path.below_concat] at h target
  obtain ⟨same, free, vacant, after⟩ :=
    perform_writeFile_ok (inner.parent?_eq (last file (by simp))) inner.ne_empty h
  rw [target] at after vacant
  refine ⟨same, List.forall_mem_append.mpr ⟨apart, List.forall_mem_singleton.mpr ?_⟩,
    fun place => ?_⟩
  · intro there
    exact vacant ((shows _).trans (layout_or_eq_folder apart _ there))
  · rw [after, layout_concat]
    by_cases new : place = placeOf m.here folder ++ (names ++ [file])
    · rw [if_pos new, if_pos new]
      rfl
    rw [if_neg new, if_neg new, shows]
    cases old : layout (placeOf m.here folder) files place with
    | some entry => rfl
    | none =>
      have free := free place
      rw [shows, old, Option.none_or] at free
      rw [Option.none_or, Option.none_or]
      exact or_folders_below ends way above new free

/-- Artifacts are laid over what was written before them. -/
lemma Laid.writeArtifacts {options : Options} {artifacts : List Artifact}
    {places : List (List String)} {written : List (String × String)}
    (paths : artifacts.map (fun a => Path.join options.outputFolder a.path) =
      places.map (Path.below folder))
    (named : ∀ names ∈ places, names ≠ [] ∧ ∀ name ∈ names, Path.IsName name.toList)
    (laid : Laid here folder base files m)
    (h : perform s (options.writeArtifacts artifacts).run m = (.ok written, m')) :
    written = artifacts.map (fun a => (Path.join options.outputFolder a.path, a.description)) ∧
      Laid here folder base (files ++ options.placed here artifacts) m' := by
  induction artifacts generalizing places files m written with
  | nil =>
    cases h
    exact ⟨rfl, (List.append_nil files).symm ▸ laid⟩
  | cons artifact rest ih =>
    cases places with
    | nil => cases paths
    | cons names places =>
      obtain ⟨⟨ne, first⟩, others⟩ := List.forall_mem_cons.mp named
      obtain ⟨front, file, rfl⟩ := (List.eq_nil_or_concat' names).resolve_left ne
      obtain ⟨path, paths⟩ : Path.join options.outputFolder artifact.path =
          Path.below folder (front ++ [file]) ∧ _ := List.cons.inj paths
      obtain ⟨_, mid, wrote, h⟩ := Machine.perform_bind_ok.mp h
      obtain ⟨_, _, note, h⟩ := Machine.perform_bind_ok.mp h
      obtain ⟨more, _, more_eq, h⟩ := Machine.perform_bind_ok.mp h
      cases h
      cases note
      have place : placeOf here (Path.join options.outputFolder artifact.path) =
          placeOf here folder ++ (front ++ [file]) := by
        rw [path]
        exact Disk.placeOf_below here ends.ne_empty first
      rw [path] at wrote
      have laid := laid.writeFile ends way first wrote
      rw [← place] at laid
      obtain ⟨rfl, laid⟩ := ih paths others (by exact laid) more_eq
      rw [List.append_assoc] at laid
      exact ⟨rfl, laid⟩

end

/-! ### Renewing a folder -/

/-- What renewing a folder has done if it succeeded. What lay in the folder is gone if the folder was
found, and there are folders all the way to it. -/
structure Renewed (folder : String) (found : Bool) (m m' : Machine) : Prop where
  here : m'.here = m.here
  isPath : Disk.IsPath folder
  start : m.disk.get? (Disk.startOf m.here folder) = some .folder
  apart : found → ¬ placeOf m.here folder <+: Disk.startOf m.here folder
  way : ∀ place ∈ trailOf m.here folder, m'.disk.get? place = some .folder
  shows : ∀ place, m'.disk.get? place =
    (if found ∧ placeOf m.here folder <+: place then none else m.disk.get? place).or
      (folders (trailOf m.here folder) place)

/-- A folder is renewed if it is made after it was cleared. -/
lemma Renewed.of_makeFolders {folder : String} {found : Bool} {left : Disk}
    (ne : folder ≠ "") (here : m'.here = m.here)
    (cleared : ∀ place, left.get? place =
      if found ∧ placeOf m.here folder <+: place then none else m.disk.get? place)
    (made : (left.makeFolders m.here folder).1 = .ok ())
    (after : m'.disk = (left.makeFolders m.here folder).2) : Renewed folder found m m' := by
  obtain ⟨isPath, start, free⟩ := (Disk.makeFolders_eq_ok ne).mp made
  have shows := Disk.get?_makeFolders ne made
  rw [← after] at shows
  have begins := start
  rw [cleared] at begins
  split_ifs at begins with gone
  refine ⟨here, isPath, begins, fun found below => gone ⟨found, below⟩, fun place passed => ?_,
    fun place => (shows place).trans (by rw [cleared])⟩
  rw [shows, folders, if_pos passed]
  cases there : left.get? place with
  | none => rfl
  | some entry =>
    cases entry with
    | folder => rfl
    | file content => exact absurd there (free place passed content)

/-- A folder that was renewed was renewed on every machine with the same disk. -/
lemma Renewed.congr {folder : String} {found : Bool} {n : Machine} (h : Renewed folder found n m')
    (disk : n.disk = m.disk) (here : n.here = m.here) : Renewed folder found m m' := by
  obtain ⟨here', isPath, start, apart, way, shows⟩ := h
  rw [here] at here' apart way shows
  rw [disk, here] at start
  rw [disk] at shows
  exact ⟨here', isPath, start, apart, way, shows⟩

section

variable {folder : String} (ne : folder ≠ "") (top : placeOf m.here folder ≠ [])

include ne top

/-- A folder is renewed if renewing it succeeds. -/
lemma perform_renewFolder_ok (h : perform s (renewFolder folder).run m = (.ok (), m')) :
    Renewed folder (m.looking s (m.disk.find? m.here folder).isSome).1 m m' := by
  rw [renewFolder] at h
  obtain ⟨found, mid, asked, h⟩ := Machine.perform_bind_ok.mp h
  rw [Machine.perform_isPresent] at asked
  cases asked
  generalize (m.looking s (m.disk.find? m.here folder).isSome).1 = found at h ⊢
  cases found with
  | false =>
    obtain ⟨-, made, rfl⟩ := Machine.perform_makeFolders_ok.mp h
    exact .of_makeFolders ne rfl (fun _ => (if_neg fun both => Bool.false_ne_true both.1).symm) made rfl
  | true =>
    obtain ⟨_, mid, note, h⟩ := Machine.perform_bind_ok.mp h
    cases note
    obtain ⟨_, _, removed, h⟩ := Machine.perform_bind_ok.mp h
    obtain ⟨-, disk, gone, rfl⟩ := Machine.perform_removeTree_ok.mp removed
    obtain ⟨-, -, rfl⟩ := Disk.removeTree_eq_ok.mp gone
    obtain ⟨-, made, rfl⟩ := Machine.perform_makeFolders_ok.mp h
    refine .of_makeFolders ne rfl (fun place => ?_) made rfl
    split_ifs with gone
    · exact Disk.get?_prune_of_prefix top gone.2
    · exact Disk.get?_prune_of_not_prefix fun below => gone ⟨rfl, below⟩

end

/-! ### The controller and the registry -/

/-- Whether no operation fails without a reason on the disk. -/
def Surroundings.Faultless (s : Surroundings) : Prop :=
  ∀ operation, s.fault operation = none

namespace Options

variable (options : Options) {name : EntityName}

/-- The controller that is to be written while a disk is as it is, if there is to be one. -/
def controllerOn (here : Location) (disk : Disk) (name : EntityName) : List (Location × String) :=
  match options.controllerTemplate with
  | none => []
  | some template =>
    match disk.readText here template with
    | .ok text => [(placeOf here (options.controllerPath name), Placeholder.fill text name)]
    | .error _ => []

/-- The controller is laid over what was written before it, if there is a template for it. -/
lemma laid_writeController (word : Schema.IsWord name.source)
    (hext : '/' ∉ options.settings.extension.toList) {base : Location → Option Entry}
    {files : List (Location × String)} {path : Option String}
    (way : ∀ place ∈ trailOf m.here (options.entityFolder name), base place = some .folder)
    (laid : Laid m.here (options.entityFolder name) base files m)
    (h : perform s (options.writeController name).run m = (.ok path, m')) :
    ∃ more, Laid m.here (options.entityFolder name) base (files ++ more) m' ∧
      (∀ file ∈ more, file.1 = placeOf m.here (options.controllerPath name)) ∧
      (s.Faultless → more = options.controllerOn m.here m.disk name ∧
        ∀ template ∈ options.controllerTemplate, (m.disk.find? m.here template).isSome →
          ∃ text, m.disk.readText m.here template = .ok text) := by
  rw [writeController] at h
  unfold controllerOn
  generalize options.controllerTemplate = template? at h ⊢
  cases template? with
  | none =>
    cases h
    exact ⟨[], (List.append_nil files).symm ▸ laid, by simp, fun _ => ⟨rfl, by simp⟩⟩
  | some template =>
    obtain ⟨found, mid, asked, h⟩ := Machine.perform_bind_ok.mp h
    rw [Machine.perform_isPresent] at asked
    cases asked
    cases looked : (m.looking s (m.disk.find? m.here template).isSome).1 with
    | false =>
      rw [looked] at h
      cases h
      refine ⟨[], (List.append_nil files).symm ▸ laid, by simp, fun faultless => ?_⟩
      rw [m.looking_fst (faultless _)] at looked
      refine ⟨?_, fun other mem there => ?_⟩
      · cases read : m.disk.readText m.here template with
        | error => simp only [read]
        | ok text =>
          rw [Disk.find?_eq_some.mpr (Disk.readText_eq_ok.mp read)] at looked
          cases looked
      · cases mem
        rw [looked] at there
        cases there
    | true =>
      rw [looked] at h
      obtain ⟨text, mid, read, h⟩ := Machine.perform_bind_ok.mp h
      obtain ⟨-, text_eq, rfl⟩ := Machine.perform_readText_ok.mp read
      obtain ⟨_, mid, wrote, h⟩ := Machine.perform_bind_ok.mp h
      cases h
      have named : ∀ part ∈ [] ++ [name.controllerName options.settings.extension],
          Path.IsName part.toList :=
        List.forall_mem_singleton.mpr (EntityName.isName_controllerName word hext)
      have ends := options.endsNamed_entityFolder word
      have path_eq : options.controllerPath name = Path.below (options.entityFolder name)
          ([] ++ [name.controllerName options.settings.extension]) := options.controllerPath_eq word
      have before : Laid m.here (options.entityFolder name) base files m.count.count := laid
      simp only [path_eq] at wrote
      have laid := before.writeFile ends way named wrote
      rw [← Disk.placeOf_below m.here ends.ne_empty named, ← path_eq] at laid
      rw [m.disk_count, m.here_count] at text_eq
      refine ⟨_, laid, by simp, fun _ => ⟨by simp only [text_eq], fun other mem _ => ?_⟩⟩
      cases mem
      exact ⟨text, text_eq⟩

/-- An entity that was registered is in the registry, and nothing else has changed. -/
lemma perform_updateRegistry_ok {change : RegistryChange}
    (h : perform s (options.updateRegistry name).run m = (.ok change, m')) :
    ∃ document r, m.disk.readText m.here options.registry = .ok document ∧
      Registry.register? options.importRoot document name = some r ∧
      change = ⟨r.importAdded, r.entryAdded, r.listFound⟩ ∧ m'.here = m.here ∧
      ∀ place, m'.disk.get? place =
        if place = placeOf m.here options.registry then some (.file (.text r.document))
        else m.disk.get? place := by
  obtain ⟨document, mid, read, h⟩ := Machine.perform_bind_ok.mp h
  obtain ⟨-, text_eq, rfl⟩ := Machine.perform_readText_ok.mp read
  cases registered : Registry.register? options.importRoot document name with
  | none =>
    rw [registered] at h
    cases h
  | some r =>
    rw [registered] at h
    refine ⟨document, r, text_eq, registered, ?_⟩
    obtain ⟨-, there⟩ := Disk.readText_eq_ok.mp text_eq
    have written {n mid : Machine} (disk : n.disk = m.disk) (here : n.here = m.here)
        (wrote : perform s (Job.writeText options.registry r.document).run n = (.ok (), mid)) :
        mid.here = m.here ∧ ∀ place, mid.disk.get? place =
          if place = placeOf m.here options.registry then some (.file (.text r.document))
          else m.disk.get? place := by
      obtain ⟨-, _, left, rfl⟩ := Machine.perform_writeText_ok.mp wrote
      obtain ⟨-, -, target, rfl⟩ := Disk.writeText_eq_ok.mp left
      rw [disk, here] at target ⊢
      exact ⟨here, fun place => Disk.get?_put _ _ _ _ (Disk.ne_nil_of_get?_ne target)⟩
    have same (none_ : r.isChange = false) (place : Location) : m.disk.get? place =
        if place = placeOf m.here options.registry then some (.file (.text r.document))
        else m.disk.get? place := by
      rw [(Registry.registers_of_register? registered).document_eq none_]
      split_ifs with here
      · exact here ▸ there
      · rfl
    simp only at h
    split_ifs at h with _ change change
    · obtain ⟨_, n, note, h⟩ := Machine.perform_bind_ok.mp h
      cases note
      obtain ⟨_, mid, wrote, h⟩ := Machine.perform_bind_ok.mp h
      cases h
      have result := written (by rfl) (by rfl) wrote
      exact ⟨rfl, result⟩
    · cases h
      exact ⟨rfl, rfl, same (Bool.not_eq_true _ ▸ change)⟩
    · obtain ⟨_, mid, wrote, h⟩ := Machine.perform_bind_ok.mp h
      cases h
      have result := written (by rfl) (by rfl) wrote
      exact ⟨rfl, result⟩
    · cases h
      exact ⟨rfl, rfl, same (Bool.not_eq_true _ ▸ change)⟩

/-- A registry stays as it is if an entity cannot be registered. -/
lemma perform_updateRegistry_error {e : Failure}
    (h : perform s (options.updateRegistry name).run m = (.error e, m')) :
    m'.here = m.here ∧ m'.disk = m.disk := by
  rw [updateRegistry] at h
  obtain failed | ⟨document, mid, read, h⟩ := Machine.perform_bind_error.mp h
  · rw [Machine.perform_readText_error failed]
    exact ⟨rfl, rfl⟩
  obtain ⟨-, -, rfl⟩ := Machine.perform_readText_ok.mp read
  cases registered : Registry.register? options.importRoot document name with
  | none =>
    rw [registered] at h
    cases h
    exact ⟨rfl, rfl⟩
  | some r =>
    rw [registered] at h
    have failed {n : Machine} (disk : n.disk = m.disk) (here : n.here = m.here)
        (failed : perform s (Job.writeText options.registry r.document).run n = (.error e, m')) :
        m'.here = m.here ∧ m'.disk = m.disk := by
      rw [Machine.perform_writeText_error failed]
      exact ⟨here, disk⟩
    simp only at h
    split_ifs at h
    · obtain e | ⟨_, n, note, h⟩ := Machine.perform_bind_error.mp h
      · cases e
      cases note
      obtain wrote | ⟨_, mid, -, h⟩ := Machine.perform_bind_error.mp h
      · exact failed (by rfl) (by rfl) wrote
      · cases h
    · cases h
    · obtain wrote | ⟨_, mid, -, h⟩ := Machine.perform_bind_error.mp h
      · exact failed (by rfl) (by rfl) wrote
      · cases h
    · cases h

/-! ### The whole turn -/

/-- What is written has been rendered, and the disk is as it was. -/
lemma perform_render_ok {entity : Entity} {artifacts : List Artifact}
    (h : perform s (options.render entity).run m = (.ok artifacts, m')) :
    entity.artifacts options.settings = .ok artifacts ∧ m'.disk = m.disk ∧ m'.here = m.here := by
  have result := (options.yields_render entity).perform (Machine.answer s) m
  have same := Machine.perform_notes (s := s) (options.all_render (fun _ => ⟨_, rfl⟩) entity) m
  change ∀ a, (perform s (options.render entity).run m).1 = .ok a → _ at result
  rw [h] at result same
  exact ⟨result artifacts rfl, same⟩

/-- An emptied folder that was filled with the files of an entity. -/
structure Filling (s : Surroundings) (here : Location) (entity : Entity)
    (emptied written : Machine) where
  artifacts : List Artifact
  controller : List (Location × String)
  word : Schema.IsWord entity.name.source
  rendered : entity.artifacts options.settings = .ok artifacts
  way : ∀ place ∈ trailOf here (options.entityFolder entity.name),
    emptied.disk.get? place = some .folder
  controller_at : ∀ file ∈ controller, file.1 = placeOf here (options.controllerPath entity.name)
  controller_eq : s.Faultless →
    controller = options.controllerOn here emptied.disk entity.name ∧
      ∀ template ∈ options.controllerTemplate, (emptied.disk.find? here template).isSome →
        ∃ text, emptied.disk.readText here template = .ok text
  laid : Laid here (options.entityFolder entity.name) emptied.disk.get?
    (controller ++ options.placed here artifacts) written

/-- A folder is filled if its controller and its artifacts were written. -/
lemma exists_filling {here : Location} {entity : Entity} {artifacts : List Artifact}
    {emptied mid written : Machine} {path : Option String} {files : List (String × String)}
    (place : emptied.here = here) (word : Schema.IsWord entity.name.source)
    (hext : '/' ∉ options.settings.extension.toList)
    (rendered : entity.artifacts options.settings = .ok artifacts)
    (way : ∀ place ∈ trailOf here (options.entityFolder entity.name),
      emptied.disk.get? place = some .folder)
    (controller : perform s (options.writeController entity.name).run emptied = (.ok path, mid))
    (wrote : perform s (options.writeArtifacts artifacts).run mid = (.ok files, written)) :
    files = artifacts.map (fun a => (Path.join options.outputFolder a.path, a.description)) ∧
      ∃ f : options.Filling s here entity emptied written, f.artifacts = artifacts := by
  subst place
  have bare : Laid emptied.here (options.entityFolder entity.name) emptied.disk.get? [] emptied :=
    ⟨rfl, by simp, fun _ => by simp [layout]⟩
  obtain ⟨more, laid, only, more_eq⟩ := options.laid_writeController word hext way bare controller
  have named : ∀ names ∈ entity.name.artifactPlaces options.settings.extension,
      names ≠ [] ∧ ∀ part ∈ names, Path.IsName part.toList := fun names mem =>
    ⟨by rintro rfl; simp [EntityName.artifactPlaces] at mem,
      EntityName.isName_of_mem_artifactPlaces word hext names mem⟩
  obtain ⟨files_eq, laid⟩ := laid.writeArtifacts (options.endsNamed_entityFolder word) way
    (options.join_artifacts word rendered) named wrote
  exact ⟨files_eq, ⟨artifacts, more, word, rendered, way, only, more_eq, laid⟩, rfl⟩

namespace Filling

variable {options} {here : Location} {entity : Entity} {emptied written : Machine}
  (f : options.Filling s here entity emptied written)

include f

/-- On the way to the files there are folders. -/
lemma folder_of_trail {place : Location}
    (mem : place ∈ trailOf here (options.entityFolder entity.name)) :
    written.disk.get? place = some .folder := by
  rw [f.laid.2.2]
  exact layout_or_eq_folder f.laid.2.1 _ (f.way place mem)

variable (hext : '/' ∉ options.settings.extension.toList)

include hext

/-- Where the artifacts are, in the folder of the entity. -/
lemma places_eq : (options.placed here f.artifacts).map Prod.fst =
    (entity.name.artifactPlaces options.settings.extension).map
      (placeOf here (options.entityFolder entity.name) ++ ·) := by
  rw [placed, List.map_map]
  exact options.placeOf_artifacts f.word f.rendered hext here

/-- All files lie in the folder of the entity. -/
lemma prefix_of_mem : ∀ file ∈ f.controller ++ options.placed here f.artifacts,
    placeOf here (options.entityFolder entity.name) <+: file.1 := by
  intro file mem
  obtain mem | mem := List.mem_append.mp mem
  · rw [f.controller_at file mem, options.controllerPath_eq f.word,
      Disk.placeOf_below here (options.endsNamed_entityFolder f.word).ne_empty]
    · exact List.prefix_append _ _
    · exact List.forall_mem_singleton.mpr (EntityName.isName_controllerName f.word hext)
  · have there := List.mem_map_of_mem (f := Prod.fst) mem
    rw [f.places_eq hext] at there
    obtain ⟨names, -, e⟩ := List.mem_map.mp there
    exact e ▸ List.prefix_append _ _

/-- The artifacts are where they were written. -/
lemma artifact_at {file : Location × String} (mem : file ∈ options.placed here f.artifacts) :
    written.disk.get? file.1 = some (.file (.text file.2)) := by
  have nodup : ((options.placed here f.artifacts).map Prod.fst).Nodup := by
    rw [placed, List.map_map]
    exact options.nodup_placeOf_artifacts f.word f.rendered hext here
  rw [f.laid.2.2, layout_of_mem nodup mem]
  rfl

/-- What is not in the folder of the entity is as it was when the folder had been emptied. -/
lemma get?_eq {place : Location}
    (outside : ¬ placeOf here (options.entityFolder entity.name) <+: place) :
    written.disk.get? place = emptied.disk.get? place := by
  rw [f.laid.2.2, layout_eq_none (f.prefix_of_mem hext) outside, Option.none_or]

end Filling

/-- A turn that succeeded, from its beginning to its end. -/
structure Turn (s : Surroundings) (schema requested : String) (report : Report) (m m' : Machine) where
  entity : Entity
  /-- Whether there was a folder to be emptied. -/
  found : Bool
  /-- The machine after the folder was emptied. -/
  emptied : Machine
  /-- The machine before the entity was registered. -/
  written : Machine
  document : String
  registration : Registry.Registration
  declared : Entity.find? schema requested = some entity
  found_eq : s.Faultless →
    found = (m.disk.find? m.here (options.entityFolder entity.name)).isSome
  renewed : Renewed (options.entityFolder entity.name) found m emptied
  filling : options.Filling s m.here entity emptied written
  stages : ∃ mid, perform s (options.writeController entity.name).run emptied =
      (.ok report.controller, mid) ∧
    perform s (options.writeArtifacts filling.artifacts).run mid = (.ok report.files, written)
  read : written.disk.readText m.here options.registry = .ok document
  registered : Registry.register? options.importRoot document entity.name = some registration
  name_eq : report.name = entity.name
  files_eq : report.files =
    filling.artifacts.map fun a => (Path.join options.outputFolder a.path, a.description)
  registry_eq : report.registry =
    ⟨registration.importAdded, registration.entryAdded, registration.listFound⟩
  here : m'.here = m.here
  shows : ∀ place, m'.disk.get? place =
    if place = placeOf m.here options.registry then some (.file (.text registration.document))
    else written.disk.get? place

/-- A turn without a scaffolder that succeeded has gone through all its stages. -/
lemma exists_turn (plain : options.scaffolder = none)
    (hext : '/' ∉ options.settings.extension.toList) {schema requested : String} {report : Report}
    (h : perform s (options.generate schema requested).run m = (.ok report, m')) :
    Nonempty (options.Turn s schema requested report m m') := by
  rw [generate] at h
  cases declared : Entity.find? schema requested with
  | none =>
    rw [declared] at h
    cases h
  | some entity =>
    rw [declared] at h
    obtain ⟨-, word⟩ := Entity.isWord_of_find? declared
    have ends := options.endsNamed_entityFolder word
    obtain ⟨artifacts, begun, render, h⟩ := Machine.perform_bind_ok.mp h
    obtain ⟨rendered, disk, here⟩ := options.perform_render_ok render
    obtain ⟨_, _, note, h⟩ := Machine.perform_bind_ok.mp h
    cases note
    obtain ⟨_, emptied, renew, h⟩ := Machine.perform_bind_ok.mp h
    obtain ⟨_, _, nothing, h⟩ := Machine.perform_bind_ok.mp h
    rw [runScaffolder, plain] at nothing
    cases nothing
    obtain ⟨path, mid, controller, h⟩ := Machine.perform_bind_ok.mp h
    obtain ⟨files, written, wrote, h⟩ := Machine.perform_bind_ok.mp h
    obtain ⟨change, last, update, h⟩ := Machine.perform_bind_ok.mp h
    cases h
    have renewed := (perform_renewFolder_ok ends.ne_empty
      (options.placeOf_entityFolder_ne_nil word _) renew).congr disk here
    obtain ⟨files_eq, filling, rfl⟩ :=
      options.exists_filling renewed.here word hext rendered renewed.way controller wrote
    obtain ⟨document, r, read, registered, rfl, same, shows⟩ :=
      options.perform_updateRegistry_ok update
    rw [filling.laid.1] at read shows same
    refine ⟨⟨entity, _, emptied, written, document, r, declared, fun faultless => ?_, renewed,
      filling, ⟨mid, controller, wrote⟩, read, registered, rfl, files_eq, rfl, same, shows⟩⟩
    rw [Machine.looking_fst _ (faultless _)]
    change (begun.disk.find? begun.here _).isSome = _
    rw [disk, here]

namespace Turn

variable {options} {schema requested : String} {report : Report}
  (t : options.Turn s schema requested report m m')

include t

/-- A turn is about the name that was asked for. -/
lemma entity_name_eq : t.entity.name = ⟨requested⟩ :=
  (Entity.isWord_of_find? t.declared).1

/-- A turn that succeeded has found its entity. -/
lemma isSome_find? : (Entity.find? schema requested).isSome := by
  rw [t.declared]
  rfl

/-- A turn that succeeded was asked for a word. -/
lemma word : Schema.IsWord requested :=
  Entity.isWord_of_isSome t.isSome_find?

section

variable (hext : '/' ∉ options.settings.extension.toList)

include hext

/-- What is not in the folder of the entity is as it was, with folders on the way. -/
lemma written_eq {place : Location}
    (outside : ¬ placeOf m.here (options.entityFolder t.entity.name) <+: place) :
    t.written.disk.get? place = (m.disk.get? place).or
      (folders (trailOf m.here (options.entityFolder t.entity.name)) place) := by
  rw [t.filling.get?_eq hext outside, t.renewed.shows, if_neg fun both => outside both.2]

variable (outside : ¬ placeOf m.here (options.entityFolder t.entity.name) <+:
  placeOf m.here options.registry)

include outside

/-- A turn ends with the artifacts in their places if the registry is elsewhere. -/
lemma artifact_at {artifact : Artifact} (mem : artifact ∈ t.filling.artifacts) :
    m'.disk.get? (placeOf m.here (Path.join options.outputFolder artifact.path)) =
      some (.file (.text artifact.content)) := by
  have file : (placeOf m.here (Path.join options.outputFolder artifact.path), artifact.content) ∈
      options.placed m.here t.filling.artifacts := List.mem_map.mpr ⟨artifact, mem, rfl⟩
  have below : placeOf m.here (options.entityFolder t.entity.name) <+:
      placeOf m.here (Path.join options.outputFolder artifact.path) :=
    t.filling.prefix_of_mem hext _ (List.mem_append_right _ file)
  have elsewhere : placeOf m.here (Path.join options.outputFolder artifact.path) ≠
      placeOf m.here options.registry := by
    intro same
    rw [same] at below
    exact outside below
  rw [t.shows, if_neg elsewhere]
  exact t.filling.artifact_at hext file

/-- What was read as the registry is what was there at the beginning. -/
lemma document_at :
    m.disk.get? (placeOf m.here options.registry) = some (.file (.text t.document)) := by
  have there := (Disk.readText_eq_ok.mp t.read).2
  rw [t.written_eq hext outside, folders] at there
  cases found : m.disk.get? (placeOf m.here options.registry) with
  | some entry => rwa [found, Option.some_or] at there
  | none =>
    rw [found, Option.none_or] at there
    split_ifs at there
    cases there

end

end Turn

end Options

end EntityForge.Run

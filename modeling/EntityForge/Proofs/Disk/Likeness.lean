import EntityForge.Proofs.Disk.Operation
import Mathlib

/-!
# Disks that look alike

A path is followed by asking what stands at its stops, and only whether that is a folder, a file or
nothing. Two disks that are alike at these stops are alike to an operation, whatever they hold
elsewhere.
-/

namespace EntityForge

/-- Whether a folder stands there, if anything does. -/
def Entry.isFolder : Entry → Bool
  | .folder => true
  | .file _ => false

namespace Disk

/-- Whether two disks hold the same sort of thing at a place. -/
def SameSort (disk disk' : Disk) (place : Location) : Prop :=
  (disk.get? place).map Entry.isFolder = (disk'.get? place).map Entry.isFolder

variable {disk disk' : Disk} {here place : Location} {path text : String}

/-- The same entry is of the same sort. -/
lemma SameSort.of_eq (h : disk.get? place = disk'.get? place) : SameSort disk disk' place :=
  congrArg (Option.map Entry.isFolder) h

/-- Where entries are of the same sort there are two folders or none. -/
lemma SameSort.folder_iff (h : SameSort disk disk' place) :
    disk.get? place = some .folder ↔ disk'.get? place = some .folder := by
  have folder (entry : Option Entry) : entry = some .folder ↔ entry.map Entry.isFolder = some true := by
    cases entry with
    | none => simp
    | some entry => cases entry <;> simp [Entry.isFolder]
  rw [folder, folder, h]

/-- A path names a file if what it names is there and no folder. -/
lemma isFile_eq (disk : Disk) (here : Location) (path : String) :
    disk.isFile here path = ((disk.find? here path).map Entry.isFolder == some false) := by
  rw [isFile]
  cases disk.find? here path with
  | none => rfl
  | some entry => cases entry <;> rfl

/-! ### Following paths -/

/-- A step succeeds on both disks alike. -/
lemma step_congr (same : SameSort disk disk' place) (part : List Char) :
    disk.step place part = disk'.step place part := by
  rw [SameSort] at same
  rw [step, step]
  cases found : disk.get? place with
  | none =>
    rw [found, Option.map_none] at same
    rw [Option.map_eq_none_iff.mp same.symm]
  | some entry =>
    obtain ⟨entry', found', sort⟩ := Option.map_eq_some_iff.mp (same.symm.trans (congrArg _ found))
    rw [found']
    cases entry <;> cases entry' <;> simp_all [Entry.isFolder]

/-- A walk succeeds on both disks alike. -/
lemma walk_congr {parts : List (List Char)}
    (same : ∀ stop ∈ stops place parts, SameSort disk disk' stop) :
    disk.walk place parts = disk'.walk place parts := by
  induction parts generalizing place with
  | nil => rfl
  | cons part rest ih =>
    obtain ⟨first, others⟩ := List.forall_mem_cons.mp same
    rw [walk, walk, step_congr first]
    cases reached : disk'.step place part with
    | error e => rfl
    | ok next =>
      obtain ⟨-, -, rfl⟩ := step_eq_ok.mp reached
      exact ih others

/-- Disks that are alike on the way of a path locate it alike. -/
lemma locate_congr (same : ∀ stop ∈ wayOf here path, SameSort disk disk' stop) :
    disk.locate here path = disk'.locate here path := by
  rw [locate, locate]
  cases pathError? path with
  | some e => rfl
  | none => exact walk_congr same

/-! ### Operations -/

section

variable (way : ∀ stop ∈ wayOf here path, SameSort disk disk' stop)

include way

/-- What is found is of the same sort. -/
lemma find?_congr (last : SameSort disk disk' (placeOf here path)) :
    (disk.find? here path).map Entry.isFolder = (disk'.find? here path).map Entry.isFolder := by
  rw [find?, find?, locate_congr way]
  cases located : disk'.locate here path with
  | error e => rfl
  | ok place =>
    obtain ⟨-, rfl⟩ := locate_eq_ok.mp located
    exact last

/-- What is read is the same. -/
lemma readText_congr (last : disk.get? (placeOf here path) = disk'.get? (placeOf here path)) :
    disk.readText here path = disk'.readText here path := by
  rw [readText, readText, locate_congr way]
  cases located : disk'.locate here path with
  | error e => rfl
  | ok place =>
    obtain ⟨-, rfl⟩ := locate_eq_ok.mp located
    simp only [bind, Except.bind, last]

/-- A text is written to both or to none. -/
lemma writeText_congr (slash : path.toList.getLast? ≠ some '/')
    (last : SameSort disk disk' (placeOf here path)) (text : String) :
    (∃ e, disk.writeText here path text = .error e ∧ disk'.writeText here path text = .error e) ∨
      placeOf here path ≠ [] ∧
      disk.writeText here path text = .ok (disk.put (placeOf here path) (.file (.text text))) ∧
      disk'.writeText here path text = .ok (disk'.put (placeOf here path) (.file (.text text))) := by
  have located := locate_congr way
  cases found : disk'.locate here path with
  | error e =>
    rw [found] at located
    refine .inl ⟨e, ?_, ?_⟩
    · rw [writeText, if_neg slash, located]
      rfl
    · rw [writeText, if_neg slash, found]
      rfl
  | ok place =>
    rw [found] at located
    obtain ⟨reaches, rfl⟩ := locate_eq_ok.mp located
    obtain ⟨reaches', -⟩ := locate_eq_ok.mp found
    by_cases folder : disk.get? (placeOf here path) = some .folder
    · refine .inl ⟨.isFolder, ?_, ?_⟩
      · rw [writeText, if_neg slash, located]
        simp only [bind, Except.bind, folder]
      · rw [writeText, if_neg slash, found]
        simp only [bind, Except.bind, last.folder_iff.mp folder]
    · have folder' := fun is => folder (last.folder_iff.mpr is)
      exact .inr ⟨ne_nil_of_get?_ne folder, writeText_eq_ok.mpr ⟨slash, reaches, folder, rfl⟩,
        writeText_eq_ok.mpr ⟨slash, reaches', folder', rfl⟩⟩

end

/-- A folder that is made on both disks where both have nothing leaves them alike elsewhere. -/
lemma SameSort.put_folder {next : Location} (missing : disk.get? next = none)
    (missing' : disk'.get? next = none) (same : SameSort disk disk' place) :
    SameSort (disk.put next .folder) (disk'.put next .folder) place := by
  have made := get?_put_folder missing place
  have made' := get?_put_folder missing' place
  by_cases here : place = next
  · exact .of_eq (by rw [made, made', here, missing, missing'])
  · rw [SameSort, made, made', if_neg here, Option.or_none, Option.or_none]
    exact same

/-- A folder that is made on both disks is all that changes on them. -/
private lemma get?_put_folder_or {next : Location} (missing : disk.get? next = none)
    (missing' : disk'.get? next = none) (other : Location) :
    ((disk.put next .folder).get? other = disk.get? other ∧
        (disk'.put next .folder).get? other = disk'.get? other) ∨
      ((disk.put next .folder).get? other = some .folder ∧
        (disk'.put next .folder).get? other = some .folder) := by
  rw [get?_put_folder missing, get?_put_folder missing']
  by_cases here : other = next
  · exact .inr (by rw [here, missing, missing', if_pos rfl]; exact ⟨rfl, rfl⟩)
  · exact .inl (by rw [if_neg here, Option.or_none, Option.or_none]; exact ⟨rfl, rfl⟩)

/-- Folders are made on both alike. -/
lemma makeAlong_congr {parts : List (List Char)}
    (same : ∀ stop ∈ trail place parts, SameSort disk disk' stop) :
    (disk.makeAlong place parts).1 = (disk'.makeAlong place parts).1 ∧ ∀ other,
      ((disk.makeAlong place parts).2.get? other = disk.get? other ∧
        (disk'.makeAlong place parts).2.get? other = disk'.get? other) ∨
      ((disk.makeAlong place parts).2.get? other = some .folder ∧
        (disk'.makeAlong place parts).2.get? other = some .folder) := by
  induction parts generalizing disk disk' place with
  | nil => exact ⟨rfl, fun _ => .inl ⟨rfl, rfl⟩⟩
  | cons part rest ih =>
    rw [trail_cons, List.forall_mem_cons] at same
    obtain ⟨first, others⟩ := same
    rw [makeAlong, makeAlong, step_congr first]
    cases reached : disk'.step place part with
    | error e => exact ⟨rfl, fun _ => .inl ⟨rfl, rfl⟩⟩
    | ok next =>
      obtain ⟨-, -, rfl⟩ := step_eq_ok.mp reached
      have here : SameSort disk disk' (enter place part) := by
        refine others _ ?_
        cases rest <;> exact List.mem_cons_self
      cases found : disk.get? (enter place part) with
      | none =>
        have found' : disk'.get? (enter place part) = none := by
          rw [SameSort, found, Option.map_none] at here
          exact Option.map_eq_none_iff.mp here.symm
        simp only [found, found']
        obtain ⟨result, after⟩ := ih fun stop mem => (others stop mem).put_folder found found'
        refine ⟨result, fun other => ?_⟩
        obtain ⟨same, same'⟩ | both := after other
        · rw [same, same']
          exact get?_put_folder_or found found' other
        · exact .inr both
      | some entry =>
        obtain ⟨entry', found', sort⟩ := Option.map_eq_some_iff.mp
          (here.symm.trans (congrArg (Option.map Entry.isFolder) found))
        simp only [found, found']
        cases entry with
        | folder =>
          cases entry' with
          | folder => exact ih others
          | file => cases sort
        | file =>
          cases entry' with
          | folder => cases sort
          | file => exact ⟨rfl, fun _ => .inl ⟨rfl, rfl⟩⟩

/-- Folders are made along a path on both alike. -/
lemma makeFolders_congr (same : ∀ stop ∈ trailOf here path, SameSort disk disk' stop) :
    (disk.makeFolders here path).1 = (disk'.makeFolders here path).1 ∧ ∀ other,
      ((disk.makeFolders here path).2.get? other = disk.get? other ∧
        (disk'.makeFolders here path).2.get? other = disk'.get? other) ∨
      ((disk.makeFolders here path).2.get? other = some .folder ∧
        (disk'.makeFolders here path).2.get? other = some .folder) := by
  rw [makeFolders, makeFolders]
  split_ifs
  · exact ⟨rfl, fun _ => .inl ⟨rfl, rfl⟩⟩
  · cases pathError? path with
    | some e => exact ⟨rfl, fun _ => .inl ⟨rfl, rfl⟩⟩
    | none => exact makeAlong_congr same

end Disk

end EntityForge

import EntityForge.Proofs.Disk.Place
import Mathlib

/-!
# What file operations do

Each operation is described by what it needs and by what the disk holds afterwards, place by place.
Operations that change the disk need nothing but folders on their way; what they leave behind when
they fail differs from what was there by missing parts or by new folders.
-/

namespace EntityForge.Disk

variable {disk disk' : Disk} {here : Location} {path text : String}

/-! ### Looking and reading -/

/-- A path that reaches its place finds what is there. -/
lemma find?_of_reaches (h : disk.Reaches here path) :
    disk.find? here path = disk.get? (placeOf here path) := by
  rw [find?, locate_of_reaches h]

/-- A path that does not reach its place finds nothing. -/
lemma find?_of_not_reaches (h : ¬ disk.Reaches here path) : disk.find? here path = none := by
  obtain ⟨e, failed⟩ := exists_locate_error h
  rw [find?, failed]

/-- What a path names is what stands where it leads, if it gets there. -/
lemma find?_eq_some {entry : Entry} : disk.find? here path = some entry ↔
    disk.Reaches here path ∧ disk.get? (placeOf here path) = some entry := by
  by_cases h : disk.Reaches here path
  · rw [find?_of_reaches h, and_iff_right h]
  · rw [find?_of_not_reaches h]
    exact iff_of_false nofun fun both => h both.1

/-- A text is read where it stands. -/
lemma readText_eq_ok : disk.readText here path = .ok text ↔
    disk.Reaches here path ∧ disk.get? (placeOf here path) = some (.file (.text text)) := by
  rw [readText, bind_eq_ok]
  constructor
  · rintro ⟨place, located, read⟩
    obtain ⟨reaches, rfl⟩ := locate_eq_ok.mp located
    refine ⟨reaches, ?_⟩
    split at read
    · cases read
    · cases read
    · cases read
    · rename_i found
      cases read
      exact found
  · rintro ⟨reaches, found⟩
    exact ⟨_, locate_of_reaches reaches, by rw [found]⟩

/-! ### Writing and removing -/

/-- A text is written where no folder stands. -/
lemma writeText_eq_ok : disk.writeText here path text = .ok disk' ↔
    path.toList.getLast? ≠ some '/' ∧ disk.Reaches here path ∧
      disk.get? (placeOf here path) ≠ some .folder ∧
      disk' = disk.put (placeOf here path) (.file (.text text)) := by
  rw [writeText]
  split_ifs with slash
  · refine iff_of_false (fun h => ?_) (fun h => h.1 slash)
    obtain ⟨_, -, h⟩ := bind_eq_ok.mp h
    cases h
  · rw [bind_eq_ok, and_iff_right slash]
    constructor
    · rintro ⟨place, located, written⟩
      obtain ⟨reaches, rfl⟩ := locate_eq_ok.mp located
      split at written
      · cases written
      · cases written
        exact ⟨reaches, ‹_›, rfl⟩
    · rintro ⟨reaches, free, rfl⟩
      refine ⟨_, locate_of_reaches reaches, ?_⟩
      split
      · exact absurd ‹_› free
      · rfl

/-- Where no folder stands, there is no root. -/
lemma ne_nil_of_get?_ne {place : Location} (h : disk.get? place ≠ some .folder) : place ≠ [] := by
  rintro rfl
  exact h (get?_root disk)

/-- A text that was written is read. -/
lemma readText_of_writeText (h : disk.writeText here path text = .ok disk') :
    disk'.readText here path = .ok text := by
  obtain ⟨-, ⟨proper, way⟩, free, rfl⟩ := writeText_eq_ok.mp h
  have ne := ne_nil_of_get?_ne free
  refine readText_eq_ok.mpr ⟨⟨proper, fun stop mem => ?_⟩, ?_⟩
  · rw [get?_put _ _ _ _ ne, if_neg, way stop mem]
    rintro rfl
    exact free (way _ mem)
  · rw [get?_put _ _ _ _ ne, if_pos rfl]

/-- A folder is removed with what lies below it. -/
lemma removeTree_eq_ok : disk.removeTree here path = .ok disk' ↔
    disk.Reaches here path ∧ disk.get? (placeOf here path) = some .folder ∧
      disk' = disk.prune (placeOf here path) := by
  rw [removeTree, bind_eq_ok]
  constructor
  · rintro ⟨place, located, removed⟩
    obtain ⟨reaches, rfl⟩ := locate_eq_ok.mp located
    split at removed
    · cases removed
    · cases removed
    · cases removed
      exact ⟨reaches, ‹_›, rfl⟩
  · rintro ⟨reaches, folder, rfl⟩
    exact ⟨_, locate_of_reaches reaches, by rw [folder]⟩

/-- Removing a folder leaves what does not lie below it. -/
lemma get?_prune_of_not_prefix {top place : Location} (h : ¬ top <+: place) :
    (disk.prune top).get? place = disk.get? place := by
  by_cases root : place = []
  · rw [root, get?_root, get?_root]
  · rw [get?_prune _ _ _ root, if_neg]
    simpa using h

/-- Removing a folder that is not the root leaves nothing of what lies below it. -/
lemma get?_prune_of_prefix {top place : Location} (ne : top ≠ []) (h : top <+: place) :
    (disk.prune top).get? place = none := by
  have root : place ≠ [] := by
    rintro rfl
    exact ne (List.prefix_nil.mp h)
  rw [get?_prune _ _ _ root, if_pos]
  simpa using h

/-- Removing part of a folder leaves what does not lie below it. -/
lemma get?_removeSome {gone : Location → Bool} {place : Location}
    (h : ¬ placeOf here path <+: place) :
    (disk.removeSome here path gone).get? place = disk.get? place := by
  by_cases root : place = []
  · rw [root, get?_root, get?_root]
  rw [removeSome]
  split
  · rename_i located
    obtain ⟨-, rfl⟩ := locate_eq_ok.mp located
    split
    · rw [get?_clear _ _ _ _ root, if_neg]
      simp [h]
    · rfl
  · rfl

/-! ### Making folders -/

/-- Folders at certain places and nothing elsewhere. -/
def folders (trail : List Location) (place : Location) : Option Entry :=
  if place ∈ trail then some .folder else none

/-- There is a folder at the first stop of a trail, and at the others. -/
@[simp]
lemma folders_cons (first : Location) (trail : List Location) (place : Location) :
    folders (first :: trail) place = if place = first then some .folder else folders trail place := by
  simp only [folders, List.mem_cons, ite_or]

/-- Folders that are there already add nothing. -/
lemma or_folders {trail : List Location} {place : Location}
    (h : ∀ stop ∈ trail, disk.get? stop = some .folder) :
    (disk.get? place).or (folders trail place) = disk.get? place := by
  rw [folders]
  split_ifs with mem
  · rw [h place mem]
    rfl
  · exact Option.or_none

/-- The places passed when parts are followed, with the last one. -/
def trail (place : Location) (parts : List (List Char)) : List Location :=
  stops place parts ++ [follow place parts]

/-- A trail begins where it starts and goes on from its next stop. -/
lemma trail_cons (place : Location) (part : List Char) (rest : List (List Char)) :
    trail place (part :: rest) = place :: trail (enter place part) rest := rfl

/-- Nobody makes a folder where one stands. -/
lemma get?_put_folder {next : Location} (none_ : disk.get? next = none) (place : Location) :
    (disk.put next .folder).get? place =
      (disk.get? place).or (if place = next then some .folder else none) := by
  rw [get?_put _ _ _ _ (ne_nil_of_get?_ne (by rw [none_]; nofun))]
  split_ifs with h
  · rw [h, none_, Option.none_or]
  · rw [Option.or_none]

/-- Making folders needs no file on the way and no part that is too long. -/
lemma makeAlong_eq_ok {place : Location} {parts : List (List Char)}
    (start : disk.get? place = some .folder) : (disk.makeAlong place parts).1 = .ok () ↔
      (∀ part ∈ parts, IsShort part) ∧
        ∀ stop ∈ trail place parts, ∀ content, disk.get? stop ≠ some (.file content) := by
  have here {disk : Disk} {place : Location} (start : disk.get? place = some .folder)
      (content : Content) : disk.get? place ≠ some (.file content) := by
    rw [start]
    nofun
  fun_induction makeAlong disk place parts with
  | case1 disk place => simpa [trail, stops, follow] using here start
  | case2 disk place part rest e failed =>
    refine iff_of_false (fun made => by cases made) fun both => ?_
    rw [step_eq_ok.mpr ⟨start, both.1 part List.mem_cons_self, rfl⟩] at failed
    cases failed
  | case3 disk place part rest next reached folder ih =>
    obtain ⟨-, short, rfl⟩ := step_eq_ok.mp reached
    refine (ih folder).trans ?_
    rw [trail_cons, List.forall_mem_cons, List.forall_mem_cons]
    exact ⟨fun h => ⟨⟨short, h.1⟩, here start, h.2⟩, fun h => ⟨h.1.2, h.2.2⟩⟩
  | case4 disk place part rest next reached missing ih =>
    obtain ⟨-, short, rfl⟩ := step_eq_ok.mp reached
    have made := get?_put_folder missing
    have files (stop : Location) (content : Content) :
        (disk.put (enter place part) .folder).get? stop = some (.file content) ↔
          disk.get? stop = some (.file content) := by
      rw [made]
      cases disk.get? stop with
      | none => split_ifs <;> simp
      | some entry => simp
    have new : (disk.put (enter place part) .folder).get? (enter place part) = some .folder := by
      rw [made, missing, if_pos rfl, Option.none_or]
    refine (ih new).trans ?_
    rw [trail_cons, List.forall_mem_cons, List.forall_mem_cons]
    simp only [ne_eq, files]
    exact ⟨fun h => ⟨⟨short, h.1⟩, here start, h.2⟩, fun h => ⟨h.1.2, h.2.2⟩⟩
  | case5 disk place part rest next reached content file =>
    obtain ⟨-, -, rfl⟩ := step_eq_ok.mp reached
    refine iff_of_false (fun made => by cases made) fun both =>
      both.2 (enter place part) ?_ content file
    rw [trail_cons]
    cases rest <;> exact .tail _ List.mem_cons_self

/-- Folders that were made are there, and all else is as it was. -/
lemma get?_makeAlong {place : Location} {parts : List (List Char)}
    (start : disk.get? place = some .folder) (h : (disk.makeAlong place parts).1 = .ok ())
    (other : Location) : (disk.makeAlong place parts).2.get? other =
      (disk.get? other).or (folders (trail place parts) other) := by
  have first (disk : Disk) (place : Location) (start : disk.get? place = some .folder)
      (more : Option Entry) : (disk.get? other).or (if other = place then some .folder else more) =
        (disk.get? other).or more := by
    split_ifs with e
    · rw [e, start, Option.some_or, Option.some_or]
    · rfl
  fun_induction makeAlong disk place parts with
  | case1 disk place =>
    rw [trail, stops, List.nil_append, folders_cons]
    exact (Option.or_none.symm).trans (first disk place start none).symm
  | case2 => cases h
  | case3 disk place part rest next reached folder ih =>
    obtain ⟨-, -, rfl⟩ := step_eq_ok.mp reached
    rw [ih folder h, trail_cons, folders_cons, first disk _ start]
  | case4 disk place part rest next reached missing ih =>
    obtain ⟨-, -, rfl⟩ := step_eq_ok.mp reached
    have made := get?_put_folder missing
    have new : (disk.put (enter place part) .folder).get? (enter place part) = some .folder := by
      rw [made, missing, if_pos rfl, Option.none_or]
    rw [ih new h, trail_cons, folders_cons, first disk _ start, made, Option.or_assoc]
    split_ifs with e
    · rw [Option.some_or, folders, if_pos]
      rw [e]
      cases rest <;> exact List.mem_cons_self
    · rw [Option.none_or]
  | case5 => cases h

/-- Whether folders are made or not, nothing else happens. -/
lemma get?_makeAlong_eq (place : Location) (parts : List (List Char)) (other : Location) :
    (disk.makeAlong place parts).2.get? other = disk.get? other ∨
      disk.get? other = none ∧ (disk.makeAlong place parts).2.get? other = some .folder := by
  fun_induction makeAlong disk place parts with
  | case1 => exact .inl rfl
  | case2 => exact .inl rfl
  | case3 disk place part rest next reached folder ih => exact ih
  | case4 disk place part rest next reached missing ih =>
    have made := get?_put_folder missing other
    split_ifs at made with e
    · rw [e] at ih made ⊢
      rw [missing, Option.none_or] at made
      exact .inr ⟨missing, ih.elim (·.trans made) (·.2)⟩
    · rwa [made, Option.or_none] at ih
  | case5 => exact .inl rfl

/-- Making a folder, or not coming to an end with it, does nothing but make folders. -/
lemma get?_makeFolders_eq (here : Location) (path : String) (other : Location) :
    (disk.makeFolders here path).2.get? other = disk.get? other ∨
      disk.get? other = none ∧ (disk.makeFolders here path).2.get? other = some .folder := by
  rw [makeFolders]
  split_ifs
  · exact .inl rfl
  · split
    · exact .inl rfl
    · exact get?_makeAlong_eq _ _ other

/-- Making some of the folders on a path makes nothing but folders, where there was nothing. -/
lemma get?_makeSome_eq (here : Location) (path : String) (reached : Nat) (other : Location) :
    (disk.makeSome here path reached).get? other = disk.get? other ∨
      disk.get? other = none ∧ (disk.makeSome here path reached).get? other = some .folder := by
  rw [makeSome]
  split_ifs
  · exact .inl rfl
  · exact get?_makeAlong_eq _ _ other

/-- The trail of a path begins where the path starts. -/
lemma startOf_mem_trailOf (here : Location) (path : String) :
    startOf here path ∈ trailOf here path :=
  List.mem_append_left _ (mem_stops_parts _ _)

/-- A folder can be made if its path begins at a folder and leads past no file. -/
lemma makeFolders_eq_ok (ne : path ≠ "") : (disk.makeFolders here path).1 = .ok () ↔
    IsPath path ∧ disk.get? (startOf here path) = some .folder ∧
      ∀ stop ∈ trailOf here path, ∀ content, disk.get? stop ≠ some (.file content) := by
  rw [makeFolders, if_neg (by simpa using ne), IsPath]
  cases wrong : pathError? path with
  | some e => exact iff_of_false (fun made => by cases made) fun both => by cases both.1.1
  | none =>
    rw [and_iff_right rfl]
    by_cases start : disk.get? (startOf here path) = some .folder
    · rw [and_iff_right start]
      exact makeAlong_eq_ok start
    · refine iff_of_false (fun h => ?_) fun both => start both.2.1
      obtain ⟨part, more, split⟩ := List.exists_cons_of_ne_nil (Path.parts_ne_nil path.toList)
      cases reached : disk.step (startOf here path) part with
      | ok next => exact start (step_eq_ok.mp reached).1
      | error e =>
        simp only [split, makeAlong, reached] at h
        cases h

/-- After a folder was made, there are folders all the way to it. -/
lemma get?_makeFolders (ne : path ≠ "") (h : (disk.makeFolders here path).1 = .ok ())
    (other : Location) : (disk.makeFolders here path).2.get? other =
      (disk.get? other).or (folders (trailOf here path) other) := by
  obtain ⟨⟨proper, -⟩, start, -⟩ := (makeFolders_eq_ok ne).mp h
  rw [makeFolders, if_neg (by simpa using ne), proper] at h ⊢
  exact get?_makeAlong start h other

end EntityForge.Disk

import EntityForge.Disk.SystemError

/-!
# Files and folders

A disk says for every place whether a file or a folder stands there. There are no links, so a place
has one path from the root. Everything known of a disk is what `get?` answers.
-/

namespace EntityForge

/-- What a file holds: a text, or bytes that are none. -/
inductive Content where
  | text (s : String)
  | binary (bytes : List UInt8)
  deriving DecidableEq, Repr

/-- The content that bytes make: a text if they are UTF-8. -/
def Content.ofBytes (bytes : List UInt8) : Content :=
  match String.fromUTF8? ⟨bytes.toArray⟩ with
  | some s => .text s
  | none => .binary bytes

/-- What stands at a place. -/
inductive Entry where
  | file (content : Content)
  | folder
  deriving DecidableEq, Repr

/-- A place on a disk: the names on the way to it from the root. -/
abbrev Location := List String

/-- The files and folders below the root. -/
structure Disk where
  entries : List (Location × Entry)
  deriving Repr

namespace Disk

/-- A disk without anything below the root. -/
def empty : Disk :=
  ⟨[]⟩

/-- What stands at a place; the root is always a folder. -/
def get? (disk : Disk) (location : Location) : Option Entry :=
  if location = [] then some .folder else disk.entries.lookup location

/-- The disk with something at a place, whatever stood there. -/
def put (disk : Disk) (location : Location) (entry : Entry) : Disk :=
  ⟨(location, entry) :: disk.entries.filter (·.1 ≠ location)⟩

/-- The disk without a place and all that lies below it. -/
def prune (disk : Disk) (location : Location) : Disk :=
  ⟨disk.entries.filter fun e => !location.isPrefixOf e.1⟩

/-- The disk without those places at or below a place that pass a test. -/
def clear (disk : Disk) (location : Location) (gone : Location → Bool) : Disk :=
  ⟨disk.entries.filter fun e => !(location.isPrefixOf e.1 && gone e.1)⟩

/-- The root is always a folder. -/
@[simp]
theorem get?_root (disk : Disk) : disk.get? [] = some .folder := rfl

/-- Looking up a key among the entries whose keys pass a test. -/
theorem lookup_filter (keep : Location → Bool) (entries : List (Location × Entry))
    (key : Location) :
    (entries.filter fun e => keep e.1).lookup key =
      if keep key then entries.lookup key else none := by
  induction entries with
  | nil => simp
  | cons e rest ih =>
    obtain ⟨k, v⟩ := e
    rw [List.filter_cons]
    by_cases heq : key = k
    · subst heq
      cases hkeep : keep key
      · simpa [hkeep] using ih
      · simp
    · have hbeq : (key == k) = false := beq_false_of_ne heq
      rw [List.lookup_cons, hbeq, ← ih]
      cases keep k
      · rfl
      · simp only [if_true, List.lookup_cons, hbeq]

/-- Only the place that something was put at has changed. -/
theorem get?_put (disk : Disk) (location other : Location) (entry : Entry)
    (h : location ≠ []) :
    (disk.put location entry).get? other =
      if other = location then some entry else disk.get? other := by
  by_cases hroot : other = []
  · subst hroot
    simp [Ne.symm h]
  · by_cases heq : other = location
    · simp [get?, put, heq, h]
    · have hbeq : (other == location) = false := beq_false_of_ne heq
      simp only [get?, put, hroot, heq, if_false, List.lookup_cons, hbeq]
      rw [lookup_filter fun k => decide (k ≠ location)]
      simp [heq]

/-- Pruning takes away a place with what lies below it and nothing else. -/
theorem get?_prune (disk : Disk) (location other : Location) (h : other ≠ []) :
    (disk.prune location).get? other =
      if location.isPrefixOf other then none else disk.get? other := by
  simp only [get?, prune, h, if_false]
  rw [lookup_filter fun k => !location.isPrefixOf k]
  cases location.isPrefixOf other <;> simp

/-- Clearing takes away the places that it is to take away. -/
theorem get?_clear (disk : Disk) (location other : Location) (gone : Location → Bool)
    (h : other ≠ []) :
    (disk.clear location gone).get? other =
      if location.isPrefixOf other && gone other then none else disk.get? other := by
  simp only [get?, clear, h, if_false]
  rw [lookup_filter fun k => !(location.isPrefixOf k && gone k)]
  cases location.isPrefixOf other && gone other <;> simp

end Disk

end EntityForge

import EntityForge.Disk.Operation
import EntityForge.Proofs.Path
import Mathlib

/-!
# Places that paths lead to

Where a path leads is settled by its parts; the disk only says whether one gets there, which takes a
folder at every stop on the way and no part that is too long. So `locate` is described by a place
and a way, and both can be read off paths that are put together.
-/

namespace EntityForge.Disk

/-! ### Following parts -/

/-- The place one part further. -/
def enter (place : Location) (part : List Char) : Location :=
  if Path.isIdle part then place
  else if part = ['.', '.'] then place.dropLast
  else place ++ [String.ofList part]

/-- The place that parts lead to. -/
def follow (place : Location) (parts : List (List Char)) : Location :=
  parts.foldl enter place

/-- The places from which one goes on when parts are followed. -/
def stops (place : Location) : List (List Char) → List Location
  | [] => []
  | part :: rest => place :: stops (enter place part) rest

/-- The place that a path leads to. -/
def placeOf (here : Location) (path : String) : Location :=
  follow (startOf here path) (Path.parts path.toList)

/-- The places on the way that a path takes, without the one that it leads to. -/
def wayOf (here : Location) (path : String) : List Location :=
  stops (startOf here path) (Path.parts path.toList)

/-- The places on the way that a path takes, with the one that it leads to. -/
def trailOf (here : Location) (path : String) : List Location :=
  wayOf here path ++ [placeOf here path]

/-- A path is followed by its first part, then by the others. -/
@[simp]
lemma follow_cons (place : Location) (part : List Char) (rest : List (List Char)) :
    follow place (part :: rest) = follow (enter place part) rest := rfl

/-- A path that is put together is followed by one half, then by the other. -/
lemma follow_append (place : Location) (ps qs : List (List Char)) :
    follow place (ps ++ qs) = follow (follow place ps) qs :=
  List.foldl_append

/-- The stops of one half of a path come before those of the other. -/
lemma stops_append (place : Location) (ps qs : List (List Char)) :
    stops place (ps ++ qs) = stops place ps ++ stops (follow place ps) qs := by
  induction ps generalizing place with
  | nil => rfl
  | cons part ps ih => exact congrArg (place :: ·) (ih _)

/-- Whoever goes anywhere starts where he is. -/
lemma mem_stops_parts (place : Location) (s : List Char) : place ∈ stops place (Path.parts s) := by
  obtain ⟨part, more, split⟩ := List.exists_cons_of_ne_nil (Path.parts_ne_nil s)
  rw [split]
  exact List.mem_cons_self

/-- An empty part leads nowhere else. -/
lemma enter_nil (place : Location) : enter place [] = place := rfl

/-- A name leads one place down. -/
lemma enter_name {name : String} (h : Path.IsName name.toList) (place : Location) :
    enter place name.toList = place ++ [name] := by
  rw [enter, h.1, if_neg Bool.false_ne_true, if_neg h.2.1, String.ofList_toList]

/-- Names lead down. -/
lemma follow_names {names : List String} (named : ∀ name ∈ names, Path.IsName name.toList)
    (place : Location) : follow place (names.map String.toList) = place ++ names := by
  induction names generalizing place with
  | nil => exact (List.append_nil place).symm
  | cons name names ih =>
    obtain ⟨first, others⟩ := List.forall_mem_cons.mp named
    rw [List.map_cons, follow_cons, enter_name first, ih others, List.append_assoc]
    rfl

/-- Whoever goes down by names passes no other places than those on the way. -/
lemma exists_prefix_of_mem_stops {names : List String}
    (named : ∀ name ∈ names, Path.IsName name.toList) {place stop : Location}
    (mem : stop ∈ stops place (names.map String.toList)) :
    ∃ front, front <+: names ∧ stop = place ++ front := by
  induction names generalizing place with
  | nil => cases mem
  | cons name names ih =>
    obtain ⟨first, others⟩ := List.forall_mem_cons.mp named
    obtain rfl | mem := List.mem_cons.mp mem
    · exact ⟨[], List.nil_prefix, (List.append_nil stop).symm⟩
    · rw [enter_name first] at mem
      obtain ⟨front, before, rfl⟩ := ih others mem
      exact ⟨name :: front, List.cons_prefix_cons.mpr ⟨rfl, before⟩, by simp⟩

/-- The path to a place leads there and passes the places on the way. -/
lemma placeOf_ofNames {place : Location} (named : ∀ name ∈ place, Path.IsName name.toList)
    (here : Location) : placeOf here (Path.ofNames place) = place ∧
      ∀ stop ∈ wayOf here (Path.ofNames place), stop <+: place := by
  have start : startOf here (Path.ofNames place) = [] := by
    rw [startOf, Path.isAbsolute, Path.ofNames, String.toList_append]
    rfl
  obtain ⟨ps, split, same | ⟨rfl, rfl⟩⟩ := Path.exists_parts_ofNames named
  · rw [placeOf, wayOf, start, split, same, follow_cons, enter_nil, follow_names named]
    refine ⟨rfl, fun stop mem => ?_⟩
    obtain rfl | mem := List.mem_cons.mp mem
    · exact List.nil_prefix
    · obtain ⟨front, before, rfl⟩ := exists_prefix_of_mem_stops named mem
      exact before
  · rw [placeOf, wayOf, start, split]
    refine ⟨rfl, fun stop mem => ?_⟩
    obtain rfl | mem := List.mem_cons.mp mem
    · exact List.prefix_rfl
    · rw [List.mem_singleton.mp mem]
      exact List.prefix_rfl

/-! ### Reaching a place -/

/-- Whether a part is not too long. -/
def IsShort (part : List Char) : Prop :=
  (String.ofList part).utf8ByteSize ≤ longestName

/-- The length of a part can be looked up. -/
instance (part : List Char) : Decidable (IsShort part) :=
  inferInstanceAs (Decidable (_ ≤ _))

/-- Whether nothing is wrong with a path as such. -/
def IsPath (path : String) : Prop :=
  pathError? path = none ∧ ∀ part ∈ Path.parts path.toList, IsShort part

/-- The faults of a path can be looked for. -/
instance (path : String) : Decidable (IsPath path) :=
  @instDecidableAnd _ _ inferInstance (List.decidableBAll _ _)

/-- Whether a path leads to a place on a disk. Something need not stand there. -/
def Reaches (disk : Disk) (here : Location) (path : String) : Prop :=
  IsPath path ∧ ∀ stop ∈ wayOf here path, disk.get? stop = some .folder

/-- A computation that goes on after another one gives a result if both do. -/
lemma bind_eq_ok {ε α β : Type} {x : Except ε α} {f : α → Except ε β} {b : β} :
    x >>= f = .ok b ↔ ∃ a, x = .ok a ∧ f a = .ok b := by
  cases x with
  | error e => exact iff_of_false nofun (by simp)
  | ok a => simp [bind, Except.bind]

/-- A step succeeds from a folder, with a part that is not too long. -/
lemma step_eq_ok {disk : Disk} {place next : Location} {part : List Char} :
    disk.step place part = .ok next ↔
      disk.get? place = some .folder ∧ IsShort part ∧ next = enter place part := by
  have idle (h : Path.isIdle part) : IsShort part := by
    rw [Path.isIdle, Bool.or_eq_true, List.isEmpty_iff, beq_iff_eq] at h
    obtain rfl | rfl := h <;> decide +kernel
  have up (h : part = ['.', '.']) : IsShort part := by
    rw [h]
    decide +kernel
  rw [step, enter]
  cases found : disk.get? place with
  | none => simp
  | some entry =>
    cases entry with
    | file => simp
    | folder =>
      simp only [true_and]
      split_ifs with h h' h''
      · simp [idle h, eq_comm]
      · simp [up h', eq_comm]
      · simp [IsShort, Nat.not_le.mpr h'']
      · simp [IsShort, Nat.not_lt.mp h'', eq_comm]

/-- A walk succeeds if all its stops are folders and no part is too long. -/
lemma walk_eq_ok {disk : Disk} {place last : Location} {parts : List (List Char)} :
    disk.walk place parts = .ok last ↔
      (∀ part ∈ parts, IsShort part) ∧ (∀ stop ∈ stops place parts, disk.get? stop = some .folder) ∧
        last = follow place parts := by
  induction parts generalizing place with
  | nil => simp [walk, stops, follow, eq_comm]
  | cons part rest ih =>
    rw [walk, bind_eq_ok, stops, follow_cons, List.forall_mem_cons, List.forall_mem_cons]
    constructor
    · rintro ⟨next, first, others⟩
      obtain ⟨folder, short, rfl⟩ := step_eq_ok.mp first
      obtain ⟨short', folders, rfl⟩ := ih.mp others
      exact ⟨⟨short, short'⟩, ⟨folder, folders⟩, rfl⟩
    · rintro ⟨⟨short, short'⟩, ⟨folder, folders⟩, rfl⟩
      exact ⟨_, step_eq_ok.mpr ⟨folder, short, rfl⟩, ih.mpr ⟨short', folders, rfl⟩⟩

/-- A path is located where it leads, if it gets there. -/
lemma locate_eq_ok {disk : Disk} {here place : Location} {path : String} :
    disk.locate here path = .ok place ↔ disk.Reaches here path ∧ place = placeOf here path := by
  rw [locate, Reaches, IsPath, placeOf, wayOf]
  cases wrong : pathError? path with
  | some e => simp
  | none => simp [walk_eq_ok, and_assoc]

/-- A path that reaches its place is located there. -/
lemma locate_of_reaches {disk : Disk} {here : Location} {path : String}
    (h : disk.Reaches here path) : disk.locate here path = .ok (placeOf here path) :=
  locate_eq_ok.mpr ⟨h, rfl⟩

/-- A path that does not reach its place is not located. -/
lemma exists_locate_error {disk : Disk} {here : Location} {path : String}
    (h : ¬ disk.Reaches here path) : ∃ e, disk.locate here path = .error e := by
  cases found : disk.locate here path with
  | error e => exact ⟨e, rfl⟩
  | ok place => exact absurd (locate_eq_ok.mp found).1 h

/-! ### Paths that are put together -/

/-- The trail of a path is its way and the place that it leads to. -/
lemma mem_trailOf {here place : Location} {path : String} :
    place ∈ trailOf here path ↔ place ∈ wayOf here path ∨ place = placeOf here path := by
  rw [trailOf, List.mem_append, List.mem_singleton]

/-- The trail of a path ends at its place. -/
lemma placeOf_mem_trailOf (here : Location) (path : String) :
    placeOf here path ∈ trailOf here path :=
  mem_trailOf.mpr (.inr rfl)

/-- Whoever comes to a place below another one, and did not start there, has passed that one. -/
lemma mem_stops_of_prefix {top start : Location} {parts : List (List Char)}
    (outside : ¬ top <+: start) {place : Location}
    (mem : place ∈ stops start parts ++ [follow start parts]) (below : top <+: place) :
    top ∈ stops start parts ++ [follow start parts] := by
  induction parts generalizing start with
  | nil =>
    obtain rfl := List.mem_singleton.mp mem
    exact absurd below outside
  | cons part rest ih =>
    obtain rfl | mem := List.mem_cons.mp mem
    · exact absurd below outside
    by_cases inside : top <+: enter start part
    · -- One step from outside leads no further than to the place itself.
      refine List.mem_cons_of_mem _ ?_
      have same : top = enter start part := by
        rw [enter] at inside ⊢
        split_ifs at inside ⊢ with idle up
        · exact absurd inside outside
        · exact absurd (inside.trans (List.dropLast_prefix start)) outside
        · exact (List.prefix_concat_iff.mp inside).resolve_right outside
      rw [same]
      cases rest <;> exact List.mem_cons_self
    · exact List.mem_cons_of_mem _ (ih inside mem)

/-- A trail that gets below a place from elsewhere has passed through it. -/
lemma mem_trailOf_of_prefix {here top place : Location} {path : String}
    (outside : ¬ top <+: startOf here path) (mem : place ∈ trailOf here path)
    (below : top <+: place) : top ∈ trailOf here path :=
  mem_stops_of_prefix outside mem below

section

variable (here : Location) {path : String} (h : Path.isAbsolute path = false) (base : String)

include h

/-- A joined path starts where its first half does. -/
lemma startOf_join : startOf here (Path.join base path) = startOf here base := by
  rw [startOf, startOf, Path.isAbsolute_join h]

/-- A relative path below another one leads on from where that one leads. -/
lemma placeOf_join : placeOf here (Path.join base path) =
    follow (placeOf here base) (Path.parts path.toList) := by
  obtain ⟨ps, split, same | more⟩ := Path.exists_parts_lead base
  · rw [placeOf, startOf_join here h, Path.toList_join h, split, follow_append, placeOf, same]
  · rw [placeOf, startOf_join here h, Path.toList_join h, split, follow_append, placeOf, more,
      follow_append, follow_cons, enter_nil]
    rfl

/-- A path below another one passes where that one passes and goes on from there. -/
lemma mem_wayOf_join {stop : Location} : stop ∈ wayOf here (Path.join base path) ↔
    stop ∈ wayOf here base ∨ stop ∈ stops (placeOf here base) (Path.parts path.toList) := by
  rw [wayOf, startOf_join here h, Path.toList_join h, wayOf, placeOf]
  obtain ⟨ps, split, same | more⟩ := Path.exists_parts_lead base
  · rw [split, stops_append, List.mem_append, same]
  · have first : follow (startOf here base) ps ∈
        stops (follow (startOf here base) ps) (Path.parts path.toList) := mem_stops_parts _ _
    rw [split, stops_append, List.mem_append, more, stops_append, List.mem_append, follow_append,
      follow_cons, enter_nil, or_assoc]
    refine or_congr_right ⟨.inr, fun mem => mem.elim (fun mem => ?_) id⟩
    rwa [List.mem_singleton.mp mem]

end

section

variable (here : Location) {folder : String} (ne : folder ≠ "") {name : String}
  (named : Path.IsName name.toList)

include ne

/-- What is put behind a path has no influence on where it starts. -/
lemma startOf_append (rest : String) : startOf here (folder ++ rest) = startOf here folder := by
  rw [startOf, startOf, Path.isAbsolute_append ne]

include named

/-- A name behind a path stands for what it names where that path leads. -/
lemma placeOf_name : placeOf here (folder ++ "/" ++ name) = placeOf here folder ++ [name] := by
  rw [placeOf, String.append_assoc, startOf_append here ne, ← String.append_assoc,
    Path.parts_name named, follow_append, follow_cons, enter_name named]
  rfl

/-- Whoever looks up a name behind a path goes where that path leads. -/
lemma wayOf_name : wayOf here (folder ++ "/" ++ name) = trailOf here folder := by
  rw [wayOf, String.append_assoc, startOf_append here ne, ← String.append_assoc,
    Path.parts_name named, stops_append, trailOf]
  rfl

end

section

variable (here : Location) {folder : String} (ne : folder ≠ "") {names : List String}
  (named : ∀ name ∈ names, Path.IsName name.toList)

include ne named

/-- Names lead down from where a path leads. -/
lemma placeOf_below : placeOf here (Path.below folder names) = placeOf here folder ++ names := by
  induction names using List.reverseRecOn with
  | nil => exact (List.append_nil _).symm
  | append_singleton names name ih =>
    obtain ⟨above, last⟩ := List.forall_mem_append.mp named
    rw [Path.below_concat, placeOf_name here (Path.below_ne_empty ne names) (last name (by simp)),
      ih above, List.append_assoc]

/-- Whoever goes down by names passes what he passes anyway and places below. -/
lemma mem_trailOf_below {place : Location} : place ∈ trailOf here (Path.below folder names) ↔
    place ∈ trailOf here folder ∨
      ∃ front, front ≠ [] ∧ front <+: names ∧ place = placeOf here folder ++ front := by
  induction names using List.reverseRecOn with
  | nil => simp [Path.below]
  | append_singleton names name ih =>
    obtain ⟨above, last⟩ := List.forall_mem_append.mp named
    have next : placeOf here (Path.below folder (names ++ [name])) =
        placeOf here folder ++ (names ++ [name]) := placeOf_below here ne named
    rw [mem_trailOf, next, Path.below_concat,
      wayOf_name here (Path.below_ne_empty ne names) (last name (by simp)), ih above, or_assoc]
    refine or_congr_right ⟨?_, ?_⟩
    · rintro (⟨front, ne, before, rfl⟩ | rfl)
      · exact ⟨front, ne, before.trans (List.prefix_append _ _), rfl⟩
      · exact ⟨_, by simp, List.prefix_rfl, rfl⟩
    · rintro ⟨front, ne, before, rfl⟩
      obtain rfl | before := List.prefix_concat_iff.mp before
      · exact .inr rfl
      · exact .inl ⟨front, ne, before, rfl⟩

end

end EntityForge.Disk

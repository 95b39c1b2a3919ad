import EntityForge.Proofs.Disk.Operation
import EntityForge.Proofs.Run.Action
import Mathlib

/-!
# File operations of a machine

An operation that succeeds met no fault and did on the disk what it does there. Whatever fails,
nothing happens to the places that an operation is not about.
-/

namespace EntityForge.Run.Machine

open Disk (placeOf trailOf folders IsPath)

variable {α : Type} {s : Surroundings} {m m' : Machine} {path text : String}

/-- The machine after one more file operation, which has left a disk behind. -/
def after (m : Machine) (disk : Disk) : Machine :=
  { m with disk := disk, operations := m.operations + 1 }

/-- Counting leaves the disk alone. -/
@[simp]
lemma disk_count (m : Machine) : m.count.disk = m.disk := rfl

/-- Counting leads nowhere else. -/
@[simp]
lemma here_count (m : Machine) : m.count.here = m.here := rfl

/-- Nothing takes a machine elsewhere. -/
lemma here_answer (s : Surroundings) (r : Request) (m : Machine) : (answer s r m).2.here = m.here := by
  cases r <;> simp only [answer, looking, reading, changing, making, launching] <;> split <;>
    first | rfl | (split <;> rfl)

/-- No action takes a machine elsewhere. -/
lemma here_perform (s : Surroundings) (action : Action α) (m : Machine) :
    (perform s action m).2.here = m.here := by
  unfold perform
  induction action generalizing m with
  | done a => rfl
  | ask r next ih => exact (ih _ _).trans (here_answer s r m)

/-! ### Operations that succeed, and operations that fail -/

/-- A job that waits for a reply succeeds if the reply says so. -/
lemma perform_ofReply_ok {x : Except SystemError α × Machine} {a : α} :
    perform s (Job.ofReply path x.1).run x.2 = (.ok a, m') ↔ x = (.ok a, m') := by
  obtain ⟨reply, mid⟩ := x
  cases reply with
  | ok b =>
    change (Except.ok b, mid) = _ ↔ _
    simp
  | error e =>
    change (Except.error _, mid) = _ ↔ _
    simp

/-- A job that waits for a reply fails if the reply tells of an error. -/
lemma perform_ofReply_error {x : Except SystemError α × Machine} {e : Failure}
    (h : perform s (Job.ofReply path x.1).run x.2 = (.error e, m')) :
    ∃ cause, x = (.error cause, m') := by
  obtain ⟨reply, mid⟩ := x
  cases reply with
  | ok b => cases h
  | error cause =>
    cases h
    exact ⟨cause, rfl⟩

/-- The disk was changed if no fault came in between and the change succeeds there. -/
lemma changing_eq_ok {left : Disk} {change : Except SystemError Disk} :
    m.changing s left change = (.ok (), m') ↔
      s.fault m.operations = none ∧ ∃ disk, change = .ok disk ∧ m' = m.after disk := by
  unfold changing
  cases s.fault m.operations with
  | some e => simp
  | none => cases change <;> simp [eq_comm, after, count]

/-- What is looked for is found if it is there and no fault hides it. -/
lemma looking_fst (m : Machine) (h : s.fault m.operations = none) (found : Bool) :
    (m.looking s found).1 = found := by
  rw [looking, h]

/-- Looking for something always has a reply. -/
lemma perform_isPresent (s : Surroundings) (m : Machine) (path : String) :
    perform s (Job.ask (.isPresent path)).run m =
      (.ok (m.looking s (m.disk.find? m.here path).isSome).1, m.count) := by
  change (Except.ok (m.looking s _).1, (m.looking s _).2) = _
  rw [looking]
  split <;> rfl

/-- A text that was read was there. -/
lemma perform_readText_ok : perform s (Job.readText path).run m = (.ok text, m') ↔
    s.fault m.operations = none ∧ m.disk.readText m.here path = .ok text ∧ m' = m.count := by
  refine perform_ofReply_ok (x := m.reading s (m.disk.readText m.here path)).trans ?_
  unfold reading
  cases s.fault m.operations <;> simp [eq_comm]

/-- A text that was not read has changed nothing. -/
lemma perform_readText_error {e : Failure}
    (h : perform s (Job.readText path).run m = (.error e, m')) : m' = m.count := by
  obtain ⟨cause, h⟩ := perform_ofReply_error (x := m.reading s (m.disk.readText m.here path)) h
  unfold reading at h
  split at h <;> exact (Prod.mk.inj h).2.symm

/-- A text that was written is there. -/
lemma perform_writeText_ok : perform s (Job.writeText path text).run m = (.ok (), m') ↔
    s.fault m.operations = none ∧ ∃ disk, m.disk.writeText m.here path text = .ok disk ∧
      m' = m.after disk :=
  perform_ofReply_ok.trans changing_eq_ok

/-- A text that was not written has changed nothing. -/
lemma perform_writeText_error {e : Failure}
    (h : perform s (Job.writeText path text).run m = (.error e, m')) : m' = m.count := by
  obtain ⟨cause, h⟩ := perform_ofReply_error
    (x := m.changing s m.disk (m.disk.writeText m.here path text)) h
  unfold changing at h
  split at h
  · exact (Prod.mk.inj h).2.symm
  · exact (Prod.mk.inj h).2.symm
  · cases h

/-- A folder that was removed was there. -/
lemma perform_removeTree_ok : perform s (Job.removeTree path).run m = (.ok (), m') ↔
    s.fault m.operations = none ∧ ∃ disk, m.disk.removeTree m.here path = .ok disk ∧
      m' = m.after disk :=
  perform_ofReply_ok.trans changing_eq_ok

/-- A folder that was made is there. -/
lemma perform_makeFolders_ok : perform s (Job.makeFolders path).run m = (.ok (), m') ↔
    s.fault m.operations = none ∧ (m.disk.makeFolders m.here path).1 = .ok () ∧
      m' = m.after (m.disk.makeFolders m.here path).2 := by
  refine perform_ofReply_ok (x := m.making s _ (m.disk.makeFolders m.here path)).trans ?_
  unfold making
  cases s.fault m.operations <;> simp [eq_comm, after, count]

/-- A job that only takes notes leaves the disk as it is. -/
lemma perform_notes {job : Job α} (h : job.All fun r => ∃ line, r = .note line) (m : Machine) :
    (perform s job.run m).2.disk = m.disk ∧ (perform s job.run m).2.here = m.here := by
  refine h.action.perform (I := fun n : Machine => n.disk = m.disk ∧ n.here = m.here) ?_ ⟨rfl, rfl⟩
  rintro r n ⟨line, rfl⟩ same
  exact same

/-! ### What requests leave alone -/

/-- Whether a request leaves certain places alone. Folders may be made anywhere. -/
def Spares (keep : Location → Prop) (here : Location) : Request → Prop
  | .writeText path _ => ¬ keep (placeOf here path)
  | .removeTree path => ∀ place, keep place → ¬ placeOf here path <+: place
  | .launch _ => False
  | _ => True

/-- Whether a machine still works where it did and nothing has happened at certain places, except
that folders may have been made. -/
def Kept (keep : Location → Prop) (m m' : Machine) : Prop :=
  m'.here = m.here ∧ ∀ place, keep place → m'.disk.get? place = m.disk.get? place ∨
    m.disk.get? place = none ∧ m'.disk.get? place = some .folder

variable {keep : Location → Prop}

/-- A machine has kept what it has. -/
lemma Kept.refl (m : Machine) : Kept keep m m :=
  ⟨rfl, fun _ _ => .inl rfl⟩

/-- What is kept twice is kept. -/
lemma Kept.trans {m'' : Machine} (h : Kept keep m m') (h' : Kept keep m' m'') :
    Kept keep m m'' := by
  refine ⟨h'.1.trans h.1, fun place mem => ?_⟩
  obtain same | ⟨none_, made⟩ := h.2 place mem
  · rw [← same]
    exact h'.2 place mem
  · obtain same' | ⟨none', -⟩ := h'.2 place mem
    · exact .inr ⟨none_, same'.trans made⟩
    · rw [made] at none'
      cases none'

/-- What is kept at many places is kept at few. -/
lemma Kept.mono {few : Location → Prop} (h : Kept keep m m')
    (imp : ∀ place, few place → keep place) : Kept few m m' :=
  ⟨h.1, fun place mem => h.2 place (imp place mem)⟩

/-- A file that is kept stays, and none comes to be. -/
lemma Kept.file_iff (h : Kept keep m m') {place : Location} (mem : keep place) {content : Content} :
    m'.disk.get? place = some (.file content) ↔ m.disk.get? place = some (.file content) := by
  obtain same | ⟨none_, made⟩ := h.2 place mem
  · rw [same]
  · rw [none_, made]
    exact iff_of_false nofun nofun

/-- A request that spares places is answered without touching them. -/
lemma kept_answer (s : Surroundings) {r : Request} (h : Spares keep m.here r) :
    Kept keep m (answer s r m).2 := by
  cases r with
  | isPresent path =>
    simp only [answer, looking]
    split <;> exact .refl m
  | isFile path =>
    simp only [answer, looking]
    split <;> exact .refl m
  | readText path =>
    simp only [answer, reading]
    split <;> exact .refl m
  | writeText path text =>
    simp only [answer, changing]
    split
    · exact .refl m
    · exact .refl m
    · rename_i written
      obtain ⟨-, -, free, rfl⟩ := Disk.writeText_eq_ok.mp written
      refine ⟨rfl, fun place mem => .inl ?_⟩
      refine (Disk.get?_put _ _ _ _ (Disk.ne_nil_of_get?_ne free)).trans (if_neg ?_)
      rintro rfl
      exact h mem
  | removeTree path =>
    simp only [answer, changing]
    split
    · exact ⟨rfl, fun place mem => .inl (Disk.get?_removeSome (h place mem))⟩
    · exact .refl m
    · rename_i removed
      obtain ⟨-, -, rfl⟩ := Disk.removeTree_eq_ok.mp removed
      exact ⟨rfl, fun place mem => .inl (Disk.get?_prune_of_not_prefix (h place mem))⟩
  | makeFolders path =>
    simp only [answer, making]
    split
    · exact ⟨rfl, fun place _ => Disk.get?_makeSome_eq _ _ _ place⟩
    · exact ⟨rfl, fun place _ => Disk.get?_makeFolders_eq _ _ place⟩
  | launch command => exact h.elim
  | note line => exact .refl m
  | display output => exact .refl m

/-- A job that asks for nothing else keeps the places. -/
lemma kept_perform (s : Surroundings) {job : Job α} (h : job.All (Spares keep m.here)) :
    Kept keep m (perform s job.run m).2 := by
  apply h.action.perform (I := Kept keep m)
  · intro r mid spares kept
    exact kept.trans (kept_answer s (kept.1 ▸ spares))
  · exact .refl m

/-! ### Folders that stay and files that are read again -/

/-- Whether a request neither removes a place nor runs a program. -/
def Leaves (place here : Location) : Request → Prop
  | .removeTree path => ¬ placeOf here path <+: place
  | .launch _ => False
  | _ => True

/-- No other request turns a folder into something else: what is written is no folder before. -/
lemma folder_answer {r : Request} {place : Location} (leaves : Leaves place m.here r)
    (stands : m.disk.get? place = some .folder) :
    (answer s r m).2.disk.get? place = some .folder := by
  -- Writing to the place itself fails, and all else leaves the place alone.
  by_cases target : ∃ path text, r = .writeText path text ∧ placeOf m.here path = place
  · obtain ⟨path, text, rfl, rfl⟩ := target
    simp only [answer, changing]
    split
    · exact stands
    · exact stands
    · rename_i written
      obtain ⟨-, -, free, -⟩ := Disk.writeText_eq_ok.mp written
      exact absurd stands free
  · have spares : Spares (· = place) m.here r := by
      cases r with
      | writeText path text => exact fun same => target ⟨path, text, rfl, same⟩
      | removeTree path =>
        rintro other rfl
        exact leaves
      | launch command => exact leaves
      | _ => trivial
    obtain same | ⟨none_, -⟩ := (kept_answer s spares).2 place rfl
    · exact same.trans stands
    · rw [stands] at none_
      cases none_

/-- Whether a request removes nothing, runs no program and does not write where a path leads. -/
def Passes (here : Location) (path : String) : Request → Prop
  | .writeText other _ => placeOf here other ≠ placeOf here path
  | .removeTree _ => False
  | .launch _ => False
  | _ => True

/-- What is read at a path is read there again if a job passes by it. -/
lemma readText_perform {job : Job α} {result : Except Failure α}
    (h : job.All (Passes m.here path)) (read : m.disk.readText m.here path = .ok text)
    (ran : perform s job.run m = (result, m')) : m'.disk.readText m.here path = .ok text := by
  have run : (perform s job.run m).2.here = m.here ∧
      (perform s job.run m).2.disk.readText m.here path = .ok text := by
    apply h.action.perform (I := fun n : Machine =>
      n.here = m.here ∧ n.disk.readText m.here path = .ok text)
    · rintro r n passes ⟨here, read⟩
      rw [← here] at passes read ⊢
      obtain ⟨⟨proper, way⟩, there⟩ := Disk.readText_eq_ok.mp read
      have leaves (place : Location) : Leaves place n.here r := by cases r <;> trivial
      have spares : Spares (· = placeOf n.here path) n.here r := by cases r <;> trivial
      refine ⟨here_answer s r n, Disk.readText_eq_ok.mpr ⟨⟨proper, fun stop mem => ?_⟩, ?_⟩⟩
      · exact folder_answer (leaves stop) (way stop mem)
      · exact ((kept_answer s spares).file_iff rfl).mpr there
    · exact ⟨rfl, read⟩
  rw [ran] at run
  exact run.2

end EntityForge.Run.Machine

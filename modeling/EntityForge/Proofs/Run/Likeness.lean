import EntityForge.Proofs.Disk.Likeness
import EntityForge.Proofs.Run.Turn
import Mathlib

/-!
# Machines that look alike

A job that asks for nothing but certain places cannot tell two machines apart that are alike there:
it has the same result on both and leaves them alike.
-/

namespace EntityForge.Run

open Disk (placeOf wayOf trailOf SameSort)

/-- Two performances that answer alike in related states have the same result and end in related
states. -/
lemma Action.All.perform_related {α σ : Type} {P : Request → Prop}
    {answer : (r : Request) → σ → r.Reply × σ} {R : σ → σ → Prop} {action : Action α}
    (h : action.All P) (step : ∀ r x y, P r → R x y →
      (answer r x).1 = (answer r y).1 ∧ R (answer r x).2 (answer r y).2) {x y : σ} (begins : R x y) :
    (action.perform answer x).1 = (action.perform answer y).1 ∧
      R (action.perform answer x).2 (action.perform answer y).2 := by
  induction action generalizing x y with
  | done a => exact ⟨rfl, begins⟩
  | ask r next ih =>
    obtain ⟨reply, related⟩ := step r x y h.1 begins
    rw [Action.perform, Action.perform]
    simp only
    rw [reply]
    exact ih _ (h.2 _) related

namespace Machine

variable {α : Type} {s : Surroundings} {known sorted : Location → Prop} {m n : Machine}

/-- Whether two machines hold the same at certain places, and the same sort of thing at others. -/
structure Alike (known sorted : Location → Prop) (m n : Machine) : Prop where
  here : n.here = m.here
  same : ∀ place, known place → m.disk.get? place = n.disk.get? place
  sort : ∀ place, sorted place → SameSort m.disk n.disk place

/-- Whether a request can be answered from certain places. What is read has to be known; to follow
a path, to look or to write takes no more than the sort of what stands there. -/
def IsLocal (known sorted : Location → Prop) (here : Location) : Request → Prop
  | .isPresent path => (∀ stop ∈ wayOf here path, sorted stop) ∧ sorted (placeOf here path)
  | .isFile path => (∀ stop ∈ wayOf here path, sorted stop) ∧ sorted (placeOf here path)
  | .readText path => (∀ stop ∈ wayOf here path, sorted stop) ∧ known (placeOf here path)
  | .writeText path _ => path.toList.getLast? ≠ some '/' ∧
    (∀ stop ∈ wayOf here path, sorted stop) ∧ sorted (placeOf here path)
  | .makeFolders path => ∀ stop ∈ trailOf here path, sorted stop
  | .removeTree _ => False
  | .launch _ => False
  | .note _ => True
  | .display _ => True

/-- A request that can be answered from places is answered alike by machines that are alike there. -/
lemma Alike.answer (faultless : s.Faultless) (alike : Alike known sorted m n) {r : Request}
    (h : IsLocal known sorted m.here r) : (answer s r m).1 = (answer s r n).1 ∧
      Alike known sorted (answer s r m).2 (answer s r n).2 := by
  obtain ⟨here, same, sort⟩ := alike
  have way {path : String} (h : ∀ stop ∈ wayOf m.here path, sorted stop) :
      ∀ stop ∈ wayOf m.here path, SameSort m.disk n.disk stop := fun stop mem => sort stop (h stop mem)
  have still : Alike known sorted m.count n.count := ⟨here, same, sort⟩
  cases r with
  | isPresent path =>
    have found := Disk.find?_congr (way h.1) (sort _ h.2)
    simp only [Machine.answer, looking, faultless m.operations, faultless n.operations, here]
    refine ⟨?_, still⟩
    rw [← Option.isSome_map (f := Entry.isFolder), found, Option.isSome_map]
  | isFile path =>
    have found := Disk.find?_congr (way h.1) (sort _ h.2)
    simp only [Machine.answer, looking, faultless m.operations, faultless n.operations, here]
    exact ⟨by rw [Disk.isFile_eq, Disk.isFile_eq, found], still⟩
  | readText path =>
    simp only [Machine.answer, reading, faultless m.operations, faultless n.operations, here]
    exact ⟨Disk.readText_congr (way h.1) (same _ h.2), still⟩
  | writeText path text =>
    simp only [Machine.answer, changing, faultless m.operations, faultless n.operations, here]
    obtain ⟨e, failed, failed'⟩ | ⟨root, wrote, wrote'⟩ :=
      Disk.writeText_congr (way h.2.1) h.1 (sort _ h.2.2) text
    · rw [failed, failed']
      exact ⟨rfl, still⟩
    · rw [wrote, wrote']
      have put (disk : Disk) (place : Location) :=
        disk.get?_put (placeOf m.here path) place (.file (.text text)) root
      refine ⟨rfl, here, fun place mem => ?_, fun place mem => ?_⟩
      · simp only [put, same place mem]
      · rw [SameSort, put, put]
        split_ifs
        · rfl
        · exact sort place mem
  | makeFolders path =>
    simp only [Machine.answer, making, faultless m.operations, faultless n.operations, here]
    obtain ⟨result, after⟩ := Disk.makeFolders_congr fun stop mem => sort stop (h stop mem)
    refine ⟨result, here, fun place mem => ?_, fun place mem => ?_⟩
    · obtain ⟨first, second⟩ | ⟨first, second⟩ := after place
      · exact first.trans ((same place mem).trans second.symm)
      · exact first.trans second.symm
    · rw [SameSort]
      obtain ⟨first, second⟩ | ⟨first, second⟩ := after place
      · rw [first, second]
        exact sort place mem
      · rw [first, second]
  | removeTree path => exact h.elim
  | launch command => exact h.elim
  | note line => exact ⟨rfl, here, same, sort⟩
  | display output => exact ⟨rfl, here, same, sort⟩

/-- A job that can be done from places has the same result on machines that are alike there. -/
lemma Alike.perform (faultless : s.Faultless) (alike : Alike known sorted m n) {job : Job α}
    (h : job.All (IsLocal known sorted m.here)) :
    (perform s job.run m).1 = (perform s job.run n).1 ∧
      Alike known sorted (perform s job.run m).2 (perform s job.run n).2 := by
  have step (r : Request) (x y : Machine) (is : IsLocal known sorted m.here r)
      (both : x.here = m.here ∧ Alike known sorted x y) :
      (Machine.answer s r x).1 = (Machine.answer s r y).1 ∧
        (Machine.answer s r x).2.here = m.here ∧
          Alike known sorted (Machine.answer s r x).2 (Machine.answer s r y).2 := by
    obtain ⟨here, both⟩ := both
    obtain ⟨reply, both⟩ := both.answer faultless (here ▸ is)
    exact ⟨reply, (here_answer s r x).trans here, both⟩
  obtain ⟨result, -, after⟩ := h.action.perform_related step ⟨rfl, alike⟩
  exact ⟨result, after⟩

end Machine

end EntityForge.Run

import EntityForge.Proofs.Run.Machine
import Mathlib

/-!
# The course of an action

A machine answers each request in its surroundings, and there a program does the same whenever it is
run in the same place on the same disk. In a course it may do something else each time. A course
lists the requests with their replies, so that one can tell what was asked for, and in which order.
An action that runs no program has no other course than the one that it takes when it is performed.
-/

namespace EntityForge.Run

open Machine (answer perform)

/-- A request and the reply to it. -/
structure Exchange where
  request : Request
  reply : request.Reply

/-- Whether a request is a message for the log only. -/
def Request.IsNote : Request → Prop
  | .note _ => True
  | _ => False

/-- The courses that an action can take on a machine: the exchanges, without notes, the result and
the machine at the end. -/
inductive Course (s : Surroundings) {α : Type} :
    Action α → Machine → List Exchange → α → Machine → Prop where
  | done (a : α) (m : Machine) : Course s (.done a) m [] a m
  | note {line : Log.Line} {next : Unit → Action α} {m m' : Machine} {log : List Exchange} {a : α} :
    Course s (next ()) (m.note line) log a m' →
    Course s (.ask (.note line) next) m log a m'
  | ask {r : Request} {next : r.Reply → Action α} {m m' : Machine} {log : List Exchange} {a : α}
    (launch : List String → Location → Disk → Launch) :
    ¬ r.IsNote →
    Course s (next (answer { s with launch := launch } r m).1)
      (answer { s with launch := launch } r m).2 log a m' →
    Course s (.ask r next) m (⟨r, (answer { s with launch := launch } r m).1⟩ :: log) a m'

namespace Course

variable {s : Surroundings} {α β : Type} {m m' : Machine} {log : List Exchange}

/-- A performed action takes a course. -/
lemma of_perform (s : Surroundings) (action : Action α) (m : Machine) :
    ∃ log, Course s action m log (perform s action m).1 (perform s action m).2 := by
  induction action generalizing m with
  | done a => exact ⟨[], .done a m⟩
  | ask r next ih =>
    obtain ⟨log, course⟩ := ih (answer s r m).1 (answer s r m).2
    by_cases noted : r.IsNote
    · cases r with
      | note line => exact ⟨log, .note course⟩
      | _ => exact noted.elim
    · exact ⟨_, .ask s.launch noted course⟩

/-- The course of an action that goes on is the course of its first part and then of its second. -/
lemma of_bind {action : Action α} {f : α → Action β} {b : β}
    (h : Course s (action >>= f) m log b m') :
    ∃ first a mid second, Course s action m first a mid ∧ Course s (f a) mid second b m' ∧
      log = first ++ second := by
  change Course s (action.andThen f) m log b m' at h
  induction action generalizing m log with
  | done a => exact ⟨[], a, m, log, .done a m, h, rfl⟩
  | ask r next ih =>
    rw [Action.andThen] at h
    cases h with
    | note h =>
      obtain ⟨first, a, mid, second, course, later, rfl⟩ := ih _ h
      exact ⟨first, a, mid, second, .note course, later, rfl⟩
    | ask launch noted h =>
      obtain ⟨first, a, mid, second, course, later, rfl⟩ := ih _ h
      exact ⟨_, a, mid, second, .ask launch noted course, later, rfl⟩

/-- What an action may ask for bounds what is asked for in its courses, where there are no notes. -/
lemma forall_of_all {P : Request → Prop} {action : Action α} (all : action.All P) {a : α}
    (h : Course s action m log a m') : ∀ x ∈ log, P x.request ∧ ¬ x.request.IsNote := by
  induction h with
  | done => simp
  | note _ ih => exact ih (all.2 ())
  | ask launch noted _ ih => exact List.forall_mem_cons.mpr ⟨⟨all.1, noted⟩, ih (all.2 _)⟩

/-- Whether a request does not run a program. -/
def IsQuiet (r : Request) : Prop :=
  ∀ command, r ≠ .launch command

/-- What programs do makes a difference only where one is run. -/
lemma answer_eq {r : Request} (quiet : IsQuiet r) (launch : List String → Location → Disk → Launch)
    (m : Machine) : answer { s with launch := launch } r m = answer s r m := by
  cases r with
  | launch command => exact absurd rfl (quiet command)
  | _ => rfl

/-- An action that runs no program takes the course of being performed. -/
lemma perform_eq {action : Action α} (quiet : action.All IsQuiet) {a : α}
    (h : Course s action m log a m') : perform s action m = (a, m') := by
  induction h with
  | done => rfl
  | note _ ih => exact ih (quiet.2 ())
  | @ask r next m m' log a launch _ _ ih =>
    have same := answer_eq (s := s) quiet.1 launch m
    rw [same] at ih
    exact ih (quiet.2 _)

/-- Nothing takes a machine elsewhere in the course of an action. -/
lemma here_eq {action : Action α} {a : α} (h : Course s action m log a m') : m'.here = m.here := by
  induction h with
  | done => rfl
  | note _ ih => exact ih
  | ask launch _ _ ih => exact ih.trans (Machine.here_answer _ _ _)

/-! ### Jobs -/

/-- A course of a job that goes on after another one ends with that one, if it fails, or goes on. -/
lemma of_bind_job {job : Job α} {f : α → Job β} {result : Except Failure β}
    (h : Course s (job >>= f).run m log result m') :
    (∃ e, result = .error e ∧ Course s job.run m log (.error e) m') ∨
      ∃ first a mid second, Course s job.run m first (.ok a) mid ∧
        Course s (f a).run mid second result m' ∧ log = first ++ second := by
  change Course s (job.run >>= ExceptT.bindCont f) m log result m' at h
  obtain ⟨first, taken, mid, second, course, later, rfl⟩ := of_bind h
  cases taken with
  | ok a => exact .inr ⟨first, a, mid, second, course, later, rfl⟩
  | error e =>
    cases later
    exact .inl ⟨e, rfl, (List.append_nil first).symm ▸ course⟩

/-- A note leaves no trace in a course. -/
lemma of_note {level : Log.Level} {message : String} {details : List (String × String)}
    {f : Unit → Job β} {result : Except Failure β}
    (h : Course s (Job.note level message details >>= f).run m log result m') :
    Course s (f ()).run (m.note ⟨.files, level, message, details⟩) log result m' := by
  obtain ⟨e, rfl, course⟩ | ⟨first, _, mid, second, course, later, rfl⟩ := of_bind_job h
  · cases course with
    | note course => cases course
    | ask _ noted => exact absurd trivial noted
  · cases course with
    | note course =>
      cases course
      exact later
    | ask _ noted => exact absurd trivial noted

/-- A request that is no note is the first exchange of a course. -/
lemma of_ask {r : Request} (noted : ¬ r.IsNote) {f : r.Reply → Job β} {result : Except Failure β}
    (h : Course s (Job.ask r >>= f).run m log result m') :
    ∃ reply mid rest, Course s (f reply).run mid rest result m' ∧ log = ⟨r, reply⟩ :: rest := by
  obtain ⟨e, rfl, course⟩ | ⟨first, _, mid, second, course, later, rfl⟩ := of_bind_job h
  · cases course with
    | note course => exact absurd trivial noted
    | ask _ _ course => cases course
  · cases course with
    | note course => exact absurd trivial noted
    | ask _ _ course =>
      cases course
      exact ⟨_, _, _, later, rfl⟩

end Course

end EntityForge.Run

import EntityForge.Proofs.Disk.Operation
import EntityForge.Run.Machine
import Mathlib

/-!
# Performing actions

What an action can ask for bounds what it can do: a property that every answer to its requests
preserves holds at its end. How a job ended says how its parts ended, so a result is taken apart
along the text of the job.
-/

namespace EntityForge.Run

/-! ### Requests of actions -/

namespace Action

variable {α β : Type} {P : Request → Prop}

/-- Whether an action asks for nothing but certain requests, whatever the replies are. -/
def All (P : Request → Prop) : Action α → Prop
  | .done _ => True
  | .ask r next => P r ∧ ∀ reply, (next reply).All P

/-- Whether an action has nothing but certain results, whatever the replies are. -/
def Yields (Q : α → Prop) : Action α → Prop
  | .done a => Q a
  | .ask _ next => ∀ reply, (next reply).Yields Q

/-- Every result is a result. -/
lemma yields_true (action : Action α) : action.Yields fun _ => True := by
  induction action with
  | done a => trivial
  | ask r k ih => exact ih

/-- An action that goes on need not care for results that there are not. -/
lemma Yields.bind_of_yields {Q : β → Prop} {R : α → Prop} {action : Action α}
    (h : action.Yields R) {f : α → Action β} (next : ∀ a, R a → (f a).Yields Q) :
    (action >>= f).Yields Q := by
  change (action.andThen f).Yields Q
  induction action with
  | done a => exact next a h
  | ask r k ih => exact fun reply => ih reply (h reply)

/-- An action that goes on has the results that it goes on to. -/
lemma Yields.bind {Q : β → Prop} (action : Action α) {f : α → Action β}
    (next : ∀ a, (f a).Yields Q) : (action >>= f).Yields Q :=
  action.yields_true.bind_of_yields fun a _ => next a

/-- The result of a performance is one that the action can have. -/
lemma Yields.perform {σ : Type} {Q : α → Prop} {action : Action α} (h : action.Yields Q)
    (answer : (r : Request) → σ → r.Reply × σ) (x : σ) : Q (action.perform answer x).1 := by
  induction action generalizing x with
  | done a => exact h
  | ask r k ih => exact ih _ (h _) _

/-- An action that goes on keeps to certain requests if both halves do; the second one need not care
for results that there are not. -/
lemma All.bind_of_yields {Q : α → Prop} {action : Action α} (h : action.All P)
    (yields : action.Yields Q) {f : α → Action β} (next : ∀ a, Q a → (f a).All P) :
    (action >>= f).All P := by
  change (action.andThen f).All P
  induction action with
  | done a => exact next a yields
  | ask r k ih => exact ⟨h.1, fun reply => ih reply (h.2 reply) (yields reply)⟩

/-- An action that goes on keeps to certain requests if both halves do. -/
lemma All.bind {action : Action α} (h : action.All P) {f : α → Action β}
    (next : ∀ a, (f a).All P) : (action >>= f).All P :=
  h.bind_of_yields action.yields_true fun a _ => next a

/-- An action that keeps to certain requests keeps to any that include them. -/
lemma All.mono {Q : Request → Prop} {action : Action α} (h : action.All P)
    (imp : ∀ r, P r → Q r) : action.All Q := by
  induction action with
  | done a => trivial
  | ask r k ih => exact ⟨imp r h.1, fun reply => ih reply (h.2 reply)⟩

/-- What no answer changes holds at the end if it holds at the beginning. -/
lemma All.perform {σ : Type} {answer : (r : Request) → σ → r.Reply × σ} {I : σ → Prop}
    {action : Action α} (h : action.All P) (step : ∀ r x, P r → I x → I (answer r x).2) {x : σ}
    (begins : I x) : I (action.perform answer x).2 := by
  induction action generalizing x with
  | done a => exact begins
  | ask r k ih => exact ih _ (h.2 _) (step r x h.1 begins)

end Action

/-- Whether a job asks for nothing but certain requests. -/
structure Job.All {α : Type} (P : Request → Prop) (job : Job α) : Prop where
  action : Action.All P job.run

namespace Job

variable {α β : Type} {P : Request → Prop}

/-- A job that is finished asks for nothing. -/
lemma all_pure (a : α) : (pure a : Job α).All P :=
  ⟨trivial⟩

/-- A job that has failed asks for nothing. -/
lemma all_throw (failure : Failure) : (throw failure : Job α).All P :=
  ⟨trivial⟩

/-- A job that goes on keeps to certain requests if both halves do. -/
lemma All.bind {job : Job α} (h : job.All P) {f : α → Job β} (next : ∀ a, (f a).All P) :
    (job >>= f).All P := by
  refine ⟨h.action.bind fun result => ?_⟩
  cases result with
  | ok a => exact (next a).action
  | error e => trivial

/-- A job that goes on need not care for results that there are not. -/
lemma All.bind_of_yields {Q : α → Prop} {job : Job α} (h : job.All P)
    (yields : Action.Yields (fun result => ∀ a, result = .ok a → Q a) job.run) {f : α → Job β}
    (next : ∀ a, Q a → (f a).All P) : (job >>= f).All P := by
  refine ⟨h.action.bind_of_yields yields fun result some => ?_⟩
  cases result with
  | ok a => exact (next a (some a rfl)).action
  | error e => trivial

/-- A request keeps to itself. -/
lemma all_ask {r : Request} (h : P r) : (ask r).All P :=
  ⟨h, fun _ => trivial⟩

/-- Looking at a reply asks for nothing. -/
lemma all_ofReply (path : String) (reply : Except SystemError α) : (ofReply path reply).All P := by
  cases reply with
  | ok a => exact ⟨trivial⟩
  | error e => exact ⟨trivial⟩

/-- Taking a note is one request. -/
lemma all_note {level : Log.Level} {message : String} {details : List (String × String)}
    (h : P (.note ⟨.files, level, message, details⟩)) : (note level message details).All P :=
  all_ask h

/-- Reading a text is one request. -/
lemma all_readText {path : String} (h : P (.readText path)) : (readText path).All P :=
  (all_ask h).bind fun reply => all_ofReply path reply

/-- Writing a text is one request. -/
lemma all_writeText {path text : String} (h : P (.writeText path text)) :
    (writeText path text).All P :=
  (all_ask h).bind fun reply => all_ofReply path reply

/-- Removing a folder is one request. -/
lemma all_removeTree {path : String} (h : P (.removeTree path)) : (removeTree path).All P :=
  (all_ask h).bind fun reply => all_ofReply path reply

/-- Making folders is one request. -/
lemma all_makeFolders {path : String} (h : P (.makeFolders path)) : (makeFolders path).All P :=
  (all_ask h).bind fun reply => all_ofReply path reply

end Job

/-! ### Failures of jobs -/

/-- Whether a job has nothing but certain failures, whatever the replies are. -/
structure Job.Raises {α : Type} (Q : Failure → Prop) (job : Job α) : Prop where
  action : job.run.Yields fun result => ∀ e, result = .error e → Q e

namespace Job

variable {α β : Type} {Q : Failure → Prop}

/-- A job that is finished does not fail. -/
lemma raises_pure (a : α) : (pure a : Job α).Raises Q :=
  ⟨nofun⟩

/-- A job that fails has its failure. -/
lemma raises_throw {e : Failure} (h : Q e) : (throw e : Job α).Raises Q :=
  ⟨fun _ same => Except.error.inj same ▸ h⟩

/-- A request does not fail, even if its reply tells of an error. -/
lemma raises_ask (r : Request) : (ask r).Raises Q :=
  ⟨fun _ => nofun⟩

/-- A job that goes on fails as one of its halves can. -/
lemma Raises.bind {job : Job α} (h : job.Raises Q) {f : α → Job β} (next : ∀ a, (f a).Raises Q) :
    (job >>= f).Raises Q := by
  refine ⟨h.action.bind_of_yields fun result raised => ?_⟩
  cases result with
  | ok a => exact (next a).action
  | error e =>
    intro e' same
    cases same
    exact raised e rfl

/-- A reply that tells of an error is a failure with the path. -/
lemma raises_ofReply {path : String} (h : ∀ cause, Q (.system path cause))
    (reply : Except SystemError α) : (ofReply path reply).Raises Q := by
  cases reply with
  | ok a => exact raises_pure a
  | error cause => exact raises_throw (h cause)

/-- The failure of a performance is one that the job can have. -/
lemma Raises.perform {job : Job α} (h : job.Raises Q) {s : Surroundings} {m m' : Machine}
    {e : Failure} (failed : Machine.perform s job.run m = (.error e, m')) : Q e :=
  h.action.perform (Machine.answer s) m e (congrArg Prod.fst failed)

end Job

/-! ### Results of jobs -/

namespace Machine

variable {α β : Type} {s : Surroundings} {m m' : Machine}

/-- A job that goes on after another one is performed on the machine that this one has left, unless
it has failed. -/
lemma perform_bind (job : Job α) (f : α → Job β) (m : Machine) :
    perform s (job >>= f).run m =
      match perform s job.run m with
      | (.ok a, mid) => perform s (f a).run mid
      | (.error e, mid) => (.error e, mid) := by
  change Action.perform (answer s) (job.run >>= ExceptT.bindCont f) m = _
  rw [Action.perform_bind]
  change perform s (ExceptT.bindCont f (perform s job.run m).1) (perform s job.run m).2 = _
  generalize perform s job.run m = result
  obtain ⟨result, mid⟩ := result
  cases result with
  | ok a => rfl
  | error e => rfl

/-- A job that goes on after another one has a result if both have. -/
lemma perform_bind_ok {job : Job α} {f : α → Job β} {b : β} :
    perform s (job >>= f).run m = (.ok b, m') ↔
      ∃ a mid, perform s job.run m = (.ok a, mid) ∧ perform s (f a).run mid = (.ok b, m') := by
  rw [perform_bind]
  generalize perform s job.run m = result
  obtain ⟨result, mid⟩ := result
  cases result with
  | ok a => simp
  | error e => simp

/-- A job that goes on after another one fails where one of them does. -/
lemma perform_bind_error {job : Job α} {f : α → Job β} {e : Failure} :
    perform s (job >>= f).run m = (.error e, m') ↔
      perform s job.run m = (.error e, m') ∨
        ∃ a mid, perform s job.run m = (.ok a, mid) ∧ perform s (f a).run mid = (.error e, m') := by
  rw [perform_bind]
  generalize perform s job.run m = result
  obtain ⟨result, mid⟩ := result
  cases result with
  | ok a => simp
  | error e => simp

/-- The machine after it has taken a note. -/
def note (m : Machine) (line : Log.Line) : Machine :=
  { m with noted := m.noted ++ [line] }

/-- Notes are not taken on the disk. -/
@[simp]
lemma disk_note (m : Machine) (line : Log.Line) : (m.note line).disk = m.disk := rfl

/-- Taking a note leads nowhere else. -/
@[simp]
lemma here_note (m : Machine) (line : Log.Line) : (m.note line).here = m.here := rfl

/-- Taking a note succeeds. -/
lemma perform_note (level : Log.Level) (message : String) (details : List (String × String))
    (m : Machine) : perform s (Job.note level message details).run m =
      (.ok (), m.note ⟨.files, level, message, details⟩) := rfl

/-- The machine after it was told what happens. -/
def tell (m : Machine) (event : Event) : Machine :=
  { m with shown := m.shown ++ [.event event] }

/-- Telling what happens leads nowhere else. -/
@[simp]
lemma here_tell (m : Machine) (event : Event) : (m.tell event).here = m.here := rfl

/-- Telling what happens succeeds. -/
lemma perform_tell (event : Event) (m : Machine) :
    perform s (Job.tell event).run m = (.ok (), m.tell event) := rfl

/-- A job with a handler for failures. -/
lemma perform_tryCatch (job : Job α) (f : Failure → Job α) (m : Machine) :
    perform s (tryCatch job f).run m =
      match perform s job.run m with
      | (.ok a, mid) => (.ok a, mid)
      | (.error e, mid) => perform s (f e).run mid := by
  change Action.perform (answer s) (job.run >>= _) m = _
  rw [Action.perform_bind]
  unfold perform
  generalize Action.perform (answer s) job.run m = result
  obtain ⟨result, mid⟩ := result
  cases result with
  | ok a => rfl
  | error e => rfl

end Machine

/-- A job that goes on after another one fails as the first one can, or where it goes on. -/
lemma Job.Raises.of_bind {α β : Type} {Q : Failure → Prop} {job : Job α} (h : job.Raises Q)
    {f : α → Job β} {s : Surroundings} {m m' : Machine} {e : Failure}
    (failed : Machine.perform s (job >>= f).run m = (.error e, m')) :
    Q e ∨ ∃ a mid, Machine.perform s job.run m = (.ok a, mid) ∧
      Machine.perform s (f a).run mid = (.error e, m') :=
  (Machine.perform_bind_error.mp failed).imp_left h.perform

end EntityForge.Run

import Mathlib.Data.List.Perm.Basic
import Mathlib.Data.List.Pairwise
import HeliumOracles.Lib.Transition

/-!
# Starting and stopping the managed tasks

Source: `task_manager/src/lib.rs` (`TaskManager::start`, `start_futures`, `stop_all`) and
`task_manager/src/select_all.rs` (`SelectAll::poll`).

A task is known by its position among the tasks added. The manager waits on two things at a
time, and what the world does while it waits is the action of a transition system
(Lib.Transition): the outcome of registering the SIGTERM handler, a signal, the completion
of the running future at a position (the first ready one in the vector, as `SelectAll::poll`
finds it), or the result a stopped future returns. `tokio::select!` takes either branch when
both are ready, so a signal and a completion are both enabled while the loop runs. The manager
logs what each future did: completed on its own, triggered, or stopped.

The result (`start_stops_in_reverse_order`): when `start` returns after the handler was
registered, every task's future has completed once, on its own or stopped. The stopped ones
were triggered and awaited one after another, in the reverse of the order they were added.
The manager returns the error of the first failure it saw, whatever the stopped tasks return.
On a signal it returns `Ok` exactly when every stopped task did, and it returns `Ok` when
every task completed successfully.
-/
namespace HeliumOracles.TaskManager

open Lib.Transition

variable {ε : Type}

/-- Why the manager stops the futures still running. -/
inductive Cause (ε : Type) where
  | failed (err : ε)
  | signal
  deriving DecidableEq, Repr

/-- What a future did, as the manager saw it. -/
inductive Effect (ε : Type) where
  | completed (task : ℕ) (result : Except ε Unit)
  | triggered (task : ℕ)
  | stopped (task : ℕ) (result : Except ε Unit)
  deriving DecidableEq, Repr

/-- Where `TaskManager::start` is. -/
inductive Phase (ε : Type) where
  /-- Before the SIGTERM handler is registered, with the number of tasks added. -/
  | registering (tasks : ℕ)
  /-- The loop, over the futures still running in the order they were added. -/
  | running (futures : List ℕ)
  /-- `stop_all`, with the futures it has yet to stop and the results of those it stopped. -/
  | stopping (cause : Cause ε) (toStop : List ℕ) (results : List (Except ε Unit))
  | returned (result : Except ε Unit)
  deriving DecidableEq, Repr

structure Manager (ε : Type) where
  phase : Phase ε
  log : List (Effect ε)
  deriving DecidableEq, Repr

/-- What the world does while the manager waits. -/
inductive Event (ε : Type) where
  | register (result : Except ε Unit)
  | signal
  | complete (index : ℕ) (result : Except ε Unit)
  | stop (result : Except ε Unit)
  deriving DecidableEq, Repr

/-- `SelectAll::poll` when the future at `index` is the first ready one: it is removed with
`Vec::remove`, which keeps the others in order. -/
def selectAll (futures : List ℕ) (index : ℕ) : Option (ℕ × List ℕ) :=
  if found : index < futures.length then some (futures[index], futures.eraseIdx index) else none

/-- `collect` of results into a `Result`: the first error, or `Ok`. -/
def collectResults : List (Except ε Unit) → Except ε Unit
  | [] => .ok ()
  | .ok () :: rest => collectResults rest
  | .error err :: _ => .error err

/-- The head of the loop: it returns `Ok` once no future is left. -/
def loopTop (futures : List ℕ) : Phase ε :=
  if futures.isEmpty then .returned (.ok ()) else .running futures

/-- What `start` returns once `stop_all` is done: a failure's own error, or on a signal
what `stop_all` collected. -/
def finishStop : Cause ε → List (Except ε Unit) → Except ε Unit
  | .failed err, _ => .error err
  | .signal, results => collectResults results

/-- `stop_all` goes on with the next future, or is done. -/
def afterStop (cause : Cause ε) (toStop : List ℕ) (results : List (Except ε Unit)) : Phase ε :=
  if toStop.isEmpty then .returned (finishStop cause results) else .stopping cause toStop results

/-- One event. `stop_all` visits the futures in reverse, triggering each and awaiting it
before the next. -/
def step : Manager ε → Event ε → Option (Manager ε)
  | ⟨.registering tasks, log⟩, .register (.ok ()) => some ⟨loopTop (List.range tasks), log⟩
  | ⟨.registering _, log⟩, .register (.error err) => some ⟨.returned (.error err), log⟩
  | ⟨.running futures, log⟩, .signal => some ⟨afterStop .signal futures.reverse [], log⟩
  | ⟨.running futures, log⟩, .complete index result =>
    (selectAll futures index).map fun (task, remaining) =>
      match result with
      | .ok () => ⟨loopTop remaining, log ++ [.completed task result]⟩
      | .error err => ⟨afterStop (.failed err) remaining.reverse [], log ++ [.completed task result]⟩
  | ⟨.stopping cause (task :: rest) results, log⟩, .stop result =>
    some ⟨afterStop cause rest (results ++ [result]), log ++ [.triggered task, .stopped task result]⟩
  | _, _ => none

/-- `TaskManager::start` with `tasks` tasks added. -/
def init (tasks : ℕ) : Manager ε := ⟨.registering tasks, []⟩

/-! ## The log of a run -/

/-- The entries of the futures that completed on their own. -/
def completedLog (completed : List (ℕ × Except ε Unit)) : List (Effect ε) :=
  completed.map fun entry => .completed entry.1 entry.2

/-- The entries of `stop_all` for the futures it stopped, in its order. -/
def stopLog (stopped : List (ℕ × Except ε Unit)) : List (Effect ε) :=
  stopped.flatMap fun entry => [.triggered entry.1, .stopped entry.1 entry.2]

/-- The futures that completed before the stop: all successfully before a signal; before a
failure, all but the last, which returned the failure's error. -/
def StopCause : Cause ε → List (ℕ × Except ε Unit) → Prop
  | .failed err, completed => ∃ before task, completed = before ++ [(task, .error err)] ∧
      ∀ entry ∈ before, entry.2 = .ok ()
  | .signal, completed => ∀ entry ∈ completed, entry.2 = .ok ()

/-- What `start` has done when it returns. -/
def Returned (tasks : ℕ) (log : List (Effect ε)) (result : Except ε Unit) : Prop :=
  (log = [] ∧ ∃ err, result = .error err) ∨
    ∃ completed stopped, log = completedLog completed ++ stopLog stopped ∧
      (completed.map Prod.fst ++ stopped.map Prod.fst).Perm (List.range tasks) ∧
      (stopped.map Prod.fst).Pairwise (· > ·) ∧
      ((stopped = [] ∧ (∀ entry ∈ completed, entry.2 = .ok ()) ∧ result = .ok ()) ∨
        (∃ before task err, completed = before ++ [(task, .error err)] ∧
          (∀ entry ∈ before, entry.2 = .ok ()) ∧ result = .error err) ∨
        (stopped ≠ [] ∧ (∀ entry ∈ completed, entry.2 = .ok ()) ∧
          (result = .ok () ↔ ∀ entry ∈ stopped, entry.2 = .ok ())))

/-- What holds in each phase of a run of `start` with `tasks` tasks added. -/
def Inv (tasks : ℕ) (manager : Manager ε) : Prop :=
  match manager.phase with
  | .registering added => added = tasks ∧ manager.log = []
  | .running futures => futures ≠ [] ∧ futures.Pairwise (· < ·) ∧
      ∃ completed, manager.log = completedLog completed ∧
        (completed.map Prod.fst ++ futures).Perm (List.range tasks) ∧
        ∀ entry ∈ completed, entry.2 = .ok ()
  | .stopping cause toStop results => toStop ≠ [] ∧
      ∃ completed stopped, manager.log = completedLog completed ++ stopLog stopped ∧
        (completed.map Prod.fst ++ stopped.map Prod.fst ++ toStop).Perm (List.range tasks) ∧
        (stopped.map Prod.fst ++ toStop).Pairwise (· > ·) ∧ results = stopped.map Prod.snd ∧
        StopCause cause completed
  | .returned result => Returned tasks manager.log result

section Lemmas

theorem collectResults_eq_ok_iff (results : List (Except ε Unit)) :
    collectResults results = .ok () ↔ ∀ result ∈ results, result = .ok () := by
  induction results with
  | nil => simp [collectResults]
  | cons result rest ih =>
    cases result with
    | ok _ => simp [collectResults, ih]
    | error err => simp [collectResults]

theorem selectAll_eq_some {futures remaining : List ℕ} {index task : ℕ}
    (selected : selectAll futures index = some (task, remaining)) :
    futures.Perm (task :: remaining) ∧ remaining.Sublist futures := by
  unfold selectAll at selected
  split at selected
  · rename_i found
    cases selected
    exact ⟨(List.getElem_cons_eraseIdx_perm found).symm, List.eraseIdx_sublist _ _⟩
  · cases selected

theorem completedLog_append (completed : List (ℕ × Except ε Unit)) (task : ℕ)
    (result : Except ε Unit) :
    completedLog completed ++ [.completed task result] = completedLog (completed ++ [(task, result)]) := by
  simp [completedLog]

theorem stopLog_append (stopped : List (ℕ × Except ε Unit)) (task : ℕ) (result : Except ε Unit) :
    stopLog stopped ++ [.triggered task, .stopped task result] =
      stopLog (stopped ++ [(task, result)]) := by
  simp [stopLog]

/-- The loop goes on with the futures left, or returns `Ok` once none is left. -/
theorem loopTop_inv {tasks : ℕ} {futures : List ℕ} (completed : List (ℕ × Except ε Unit))
    {log : List (Effect ε)} (logIs : log = completedLog completed)
    (ordered : futures.Pairwise (· < ·))
    (all : (completed.map Prod.fst ++ futures).Perm (List.range tasks))
    (succeeded : ∀ entry ∈ completed, entry.2 = .ok ()) :
    Inv tasks ⟨loopTop futures, log⟩ := by
  subst logIs
  unfold loopTop
  split
  · rename_i empty
    rw [List.isEmpty_iff.mp empty, List.append_nil] at all
    refine .inr ⟨completed, [], by simp [stopLog], by simpa using all, .nil, .inl ⟨rfl, succeeded, rfl⟩⟩
  · rename_i nonempty
    exact ⟨fun empty => nonempty (List.isEmpty_iff.mpr empty), ordered, completed, rfl, all,
      succeeded⟩

/-- `stop_all` goes on with the futures left, or returns once none is left. -/
theorem afterStop_inv {tasks : ℕ} {cause : Cause ε} {toStop : List ℕ}
    {completed : List (ℕ × Except ε Unit)} (stopped : List (ℕ × Except ε Unit))
    {results : List (Except ε Unit)}
    {log : List (Effect ε)} (logIs : log = completedLog completed ++ stopLog stopped)
    (resultsIs : results = stopped.map Prod.snd)
    (all : (completed.map Prod.fst ++ stopped.map Prod.fst ++ toStop).Perm (List.range tasks))
    (reversed : (stopped.map Prod.fst ++ toStop).Pairwise (· > ·))
    (caused : StopCause cause completed) :
    Inv tasks ⟨afterStop cause toStop results, log⟩ := by
  subst logIs resultsIs
  unfold afterStop
  split
  · rename_i empty
    rw [List.isEmpty_iff.mp empty, List.append_nil] at all reversed
    refine .inr ⟨completed, stopped, rfl, all, reversed, ?_⟩
    cases cause with
    | failed err =>
      obtain ⟨before, task, rfl, succeeded⟩ := caused
      exact .inr (.inl ⟨before, task, err, rfl, succeeded, rfl⟩)
    | signal =>
      by_cases none : stopped = []
      · subst none
        exact .inl ⟨rfl, caused, rfl⟩
      · refine .inr (.inr ⟨none, caused, ?_⟩)
        rw [finishStop, collectResults_eq_ok_iff, List.forall_mem_map]
  · rename_i nonempty
    exact ⟨fun empty => nonempty (List.isEmpty_iff.mpr empty), completed, stopped, rfl, all,
      reversed, rfl, caused⟩

/-- Every event keeps the invariant. -/
theorem step_inv {tasks : ℕ} {manager manager' : Manager ε} {event : Event ε}
    (inv : Inv tasks manager) (moved : step manager event = some manager') : Inv tasks manager' := by
  obtain ⟨phase, log⟩ := manager
  cases phase with
  | registering added =>
    obtain ⟨rfl, rfl⟩ := inv
    cases event with
    | register result =>
      cases result with
      | ok _ =>
        simp only [step, Option.some.injEq] at moved
        subst moved
        exact loopTop_inv [] rfl List.pairwise_lt_range (by simp) (by simp)
      | error err =>
        simp only [step, Option.some.injEq] at moved
        subst moved
        exact .inl ⟨rfl, err, rfl⟩
    | signal => simp [step] at moved
    | complete index result => simp [step] at moved
    | stop result => simp [step] at moved
  | running futures =>
    obtain ⟨-, ordered, completed, logIs, all, succeeded⟩ := inv
    dsimp only at logIs
    cases event with
    | signal =>
      simp only [step, Option.some.injEq] at moved
      subst moved
      refine afterStop_inv []
        (by rw [logIs, stopLog, List.flatMap_nil, List.append_nil]) rfl ?_ ?_ succeeded
      · simpa using (List.Perm.append_left _ (List.reverse_perm futures)).trans all
      · simpa using List.pairwise_reverse.mpr ordered
    | complete index result =>
      simp only [step, Option.map_eq_some_iff] at moved
      obtain ⟨⟨task, remaining⟩, selected, rfl⟩ := moved
      obtain ⟨picked, kept⟩ := selectAll_eq_some selected
      have left : ((completed ++ [(task, result)]).map Prod.fst ++ remaining).Perm
          (List.range tasks) := by
        simpa using (List.Perm.append_left _ picked.symm).trans all
      cases result with
      | ok _ =>
        refine loopTop_inv _ (by rw [logIs]; exact completedLog_append _ _ _) (ordered.sublist kept)
          left fun entry present => ?_
        rcases List.mem_append.mp present with earlier | latest
        · exact succeeded entry earlier
        · rw [List.mem_singleton.mp latest]
      | error err =>
        refine afterStop_inv []
          (by rw [logIs, completedLog_append, stopLog, List.flatMap_nil, List.append_nil]) rfl
          ?_ ?_ ⟨completed, task, rfl, succeeded⟩
        · simpa using (List.Perm.append_left _ (List.reverse_perm remaining)).trans left
        · simpa using List.pairwise_reverse.mpr (ordered.sublist kept)
    | register result => simp [step] at moved
    | stop result => simp [step] at moved
  | stopping cause toStop results =>
    obtain ⟨-, completed, stopped, logIs, all, reversed, resultsIs, caused⟩ := inv
    dsimp only at logIs
    cases event with
    | stop result =>
      cases toStop with
      | nil => simp [step] at moved
      | cons task rest =>
        simp only [step, Option.some.injEq] at moved
        subst moved
        refine afterStop_inv (stopped ++ [(task, result)])
          (by rw [logIs, List.append_assoc, stopLog_append]) (by simp [resultsIs]) ?_ ?_ caused
        · simpa using all
        · simpa using reversed
    | register result => simp [step] at moved
    | signal => simp [step] at moved
    | complete index result => simp [step] at moved
  | returned result => cases event <;> simp [step] at moved

end Lemmas

end HeliumOracles.TaskManager

import FunasrApi.Queue.Scheduling

/-!
# The queue across restarts

Runs of one runtime through any number of `start` and awaited `stop` calls, in
which the shutdown timeout cancels the workers one by one. `stop` clears the
registry that it shares with the batch executions. As long as none of them is
executing a task then, every execution keeps its mark until its own end.
-/

namespace FunasrApi.Queue

open FunasrApi.Core

variable {Id : Type*} [DecidableEq Id]

/-- The end of an execution: each of these steps calls `finish`. -/
def QueueAction.finishes : QueueAction Id → Prop
  | .complete _ | .endBatch _ | .cancelWorker _ => True
  | .start _ | .enqueue .. | .take _ | .beginBatch .. | .stop | .stopped => False

/-- `start` and awaited `stop` calls alternate, and tasks are enqueued while the runtime is
running. -/
def Alternates (s : QueueWorkerRuntime Id) : QueueAction Id → Prop
  | .start _ => s.running = false ∧ s.stopping = false
  | .stop => s.running = true
  | .enqueue .. => s.running = true
  | .take _ | .complete _ | .beginBatch .. | .endBatch _ | .cancelWorker _ | .stopped => True

instance (s : QueueWorkerRuntime Id) : DecidablePred (Alternates s)
  | .start _ => inferInstanceAs (Decidable (_ ∧ _))
  | .stop => inferInstanceAs (Decidable (_ = _))
  | .enqueue .. => inferInstanceAs (Decidable (_ = _))
  | .take _ | .complete _ | .beginBatch .. | .endBatch _ | .cancelWorker _ | .stopped =>
    isTrue trivial

/-- No batch execution is inside `process_task` when `stop` clears the registry. -/
def ClearsNoBatch (s : QueueWorkerRuntime Id) (a : QueueAction Id) : Prop :=
  a = .stopped → s.batches = []

instance (s : QueueWorkerRuntime Id) (a : QueueAction Id) : Decidable (ClearsNoBatch s a) :=
  inferInstanceAs (Decidable (a = .stopped → s.batches = []))

/-- The tasks in the queue are the queued keys, each once, whatever sentinels lie among them, and
the keys under execution are those in flight, each once. -/
structure Exclusive (s : QueueWorkerRuntime Id) : Prop where
  queued : (↑(s.queue.items.filterMap Entry.task) : Multiset (TaskKey Id)) = s.registry.queued.val
  inflight : InFlightKeys s

section Steps

variable {s t : QueueWorkerRuntime Id} {index : Nat}

omit [DecidableEq Id] in
theorem exclusive_idle (counter : Nat) : Exclusive (.idle counter : QueueWorkerRuntime Id) :=
  ⟨rfl, rfl⟩

omit [DecidableEq Id] in
theorem Exclusive.start (h : Exclusive s) (workerCount : Nat) :
    Exclusive (s.start workerCount) := by
  refine ⟨?_, h.inflight.start workerCount⟩
  unfold QueueWorkerRuntime.start
  split <;> exact h.queued

theorem Exclusive.enqueue (h : Exclusive s) (kind : TaskKind) (taskId : Id) (vip : Bool) :
    Exclusive (s.enqueue kind taskId vip) := by
  unfold QueueWorkerRuntime.enqueue
  cases hr : s.registry.tryEnqueue (kind, taskId) with
  | none => exact h
  | some registry =>
    obtain ⟨hnew, -, hqueued, hinflight⟩ := TaskExecutionRegistry.tryEnqueue_spec hr
    constructor
    · have hperm := (s.queue.put_perm
        ⟨queuePriorityFor vip, s.counter, some (kind, taskId)⟩).filterMap Entry.task
      show (↑((s.queue.put _).items.filterMap Entry.task) : Multiset (TaskKey Id)) = _
      rw [Multiset.coe_eq_coe.mpr hperm, hqueued, Finset.insert_val_of_notMem hnew, ← h.queued]
      rfl
    · unfold InFlightKeys
      rw [hinflight]
      exact h.inflight

/-- A worker takes a key that is queued, and so not in flight, or a sentinel. -/
theorem Exclusive.take (h : Exclusive s) (ht : s.take index = some t) : Exclusive t := by
  unfold QueueWorkerRuntime.take at ht
  split at ht
  · rename_i entry queue hw hq
    have hqueued := h.queued
    rw [PriorityQueue.get?_items hq] at hqueued
    split at ht
    · next hsentinel =>
      obtain rfl := Option.some.inj ht
      rw [List.filterMap_cons_none hsentinel] at hqueued
      exact ⟨hqueued, h.inflight.exit hw⟩
    · next key hkey =>
      obtain rfl := Option.some.inj ht
      rw [List.filterMap_cons_some hkey, ← Multiset.cons_coe] at hqueued
      have hmem : key ∈ s.registry.queued := by
        rw [← Finset.mem_val, ← hqueued]
        exact Multiset.mem_cons_self ..
      refine ⟨?_, h.inflight.take hw (s.registry.disjoint key hmem)⟩
      show _ = (s.registry.queued.erase key).val
      rw [Finset.erase_val, ← hqueued, Multiset.erase_cons_head]
  · cases ht

theorem Exclusive.complete (h : Exclusive s) (ht : s.complete index = some t) : Exclusive t := by
  refine ⟨?_, h.inflight.complete ht⟩
  unfold QueueWorkerRuntime.complete at ht
  split at ht
  · obtain rfl := Option.some.inj ht
    exact h.queued
  · cases ht

theorem Exclusive.beginBatch (h : Exclusive s) (taskId : Id) (found : Bool) :
    Exclusive (s.beginBatch taskId found) := by
  refine ⟨?_, h.inflight.beginBatch taskId found⟩
  unfold QueueWorkerRuntime.beginBatch
  split
  · cases hr : s.registry.tryBeginExternal (.offline, taskId) with
    | none => exact h.queued
    | some registry =>
      obtain ⟨-, -, hqueued, -⟩ := TaskExecutionRegistry.tryBeginExternal_spec hr
      show _ = registry.queued.val
      rw [hqueued]
      exact h.queued
  · exact h.queued

theorem Exclusive.endBatch (h : Exclusive s) {taskId : Id} (ht : s.endBatch taskId = some t) :
    Exclusive t := by
  refine ⟨?_, h.inflight.endBatch ht⟩
  unfold QueueWorkerRuntime.endBatch at ht
  split at ht
  · obtain rfl := Option.some.inj ht
    exact h.queued
  · cases ht

omit [DecidableEq Id] in
/-- Sentinels are no tasks. -/
theorem filterMap_task_sentinels (indices : List Nat) (counter : Nat)
    (q : PriorityQueue (@Entry.le Id)) :
    (↑((indices.foldl (fun q i => q.put ⟨-1, counter + i, none⟩) q).items.filterMap Entry.task) :
      Multiset (TaskKey Id)) = ↑(q.items.filterMap Entry.task) := by
  induction indices generalizing q with
  | nil => rfl
  | cons i indices ih =>
    rw [List.foldl_cons, ih]
    exact Multiset.coe_eq_coe.mpr ((q.put_perm ⟨-1, counter + i, none⟩).filterMap Entry.task)

omit [DecidableEq Id] in
theorem Exclusive.stop (h : Exclusive s) : Exclusive s.stop := by
  unfold QueueWorkerRuntime.stop
  split
  · exact h
  · exact ⟨(filterMap_task_sentinels _ _ _).trans h.queued, h.inflight⟩

theorem Exclusive.cancelWorker (h : Exclusive s) (ht : s.cancelWorker index = some t) :
    Exclusive t := by
  unfold QueueWorkerRuntime.cancelWorker at ht
  split at ht
  · split at ht
    · next hw =>
      obtain rfl := Option.some.inj ht
      exact ⟨h.queued, h.inflight.exit hw⟩
    · next key hw =>
      obtain rfl := Option.some.inj ht
      exact ⟨h.queued, h.inflight.set_finish hw rfl⟩
    · cases ht
    · cases ht
  · cases ht

/-- When all workers have exited and no batch execution is left, nothing is under execution. -/
theorem exclusive_stopped (hbatches : s.batches = []) (ht : s.stopped = some t) : Exclusive t := by
  unfold QueueWorkerRuntime.stopped at ht
  split at ht
  · obtain rfl := Option.some.inj ht
    refine ⟨rfl, ?_⟩
    unfold InFlightKeys QueueWorkerRuntime.executing
    rw [hbatches]
    rfl
  · cases ht

/-- Every step keeps the invariant, if `stop` clears the registry with no batch execution left. -/
theorem Exclusive.step (h : Exclusive s) {a : QueueAction Id} (hclears : ClearsNoBatch s a)
    (hstep : (machine Id).step s a = some t) : Exclusive t := by
  cases a with
  | start workerCount =>
    obtain rfl := Option.some.inj hstep
    exact h.start workerCount
  | enqueue kind taskId vip =>
    obtain rfl := Option.some.inj hstep
    exact h.enqueue kind taskId vip
  | take index => exact h.take hstep
  | complete index => exact h.complete hstep
  | beginBatch taskId found =>
    obtain rfl := Option.some.inj hstep
    exact h.beginBatch taskId found
  | endBatch taskId => exact h.endBatch hstep
  | stop =>
    obtain rfl := Option.some.inj hstep
    exact h.stop
  | cancelWorker index => exact h.cancelWorker hstep
  | stopped => exact exclusive_stopped (hclears rfl) hstep

end Steps

/-- In every run of `start` and awaited `stop` calls in which `stop` never clears the registry while
a batch execution is inside `process_task`, no key is under execution twice, and the end of an
execution leaves the marks of all the others. -/
theorem restart_exclusive {counter : Nat} {s : QueueWorkerRuntime Id}
    (h : (machine Id).Reach (fun s a => Alternates s a ∧ ClearsNoBatch s a)
      (.idle counter) s) :
    s.executing.Nodup ∧ ∀ a t, QueueAction.finishes a → (machine Id).step s a = some t →
      ∀ key ∈ t.executing, key ∈ s.registry.inflight → key ∈ t.registry.inflight := by
  have hexclusive : Exclusive s :=
    Machine.Reach.invariant h (exclusive_idle counter)
      fun _ _ _ hs ha hstep => hs.step ha.2 hstep
  constructor
  · rw [← Multiset.coe_nodup, hexclusive.inflight]
    exact s.registry.inflight.nodup
  · intro a t hfinishes hstep key hkey _
    have hclears : ClearsNoBatch s a := by
      rintro rfl
      exact hfinishes.elim
    rw [← Finset.mem_val, ← (hexclusive.step hclears hstep).inflight]
    exact hkey

/-- A batch execution ends before the queue is stopped with a task in its worker, and after the
restart both tasks are enqueued again. -/
def restartRun : List (QueueAction Nat) :=
  [.start 1, .beginBatch 1 true, .enqueue .offline 2 false, .take 0, .endBatch 1, .stop,
    .cancelWorker 0, .stopped, .start 2, .enqueue .offline 1 false, .enqueue .offline 2 true,
    .take 0, .take 1]

/-- Both are under execution then, once. -/
theorem restartRun_exclusive :
    ∃ s, (machine Nat).runIf (fun s a => Alternates s a ∧ ClearsNoBatch s a) (.idle 0)
        restartRun = some s ∧
      s.executing = [(.offline, 2), (.offline, 1)] ∧ s.executing.Nodup := by
  have hrun : ((machine Nat).runIf (fun s a => Alternates s a ∧ ClearsNoBatch s a) (.idle 0)
      restartRun).any (fun s => decide (s.executing = [(.offline, 2), (.offline, 1)])) = true := by
    decide +kernel
  obtain ⟨s, hs, hexecuting⟩ := (Option.any_eq_true _ _).mp hrun
  exact ⟨s, hs, of_decide_eq_true hexecuting, (restart_exclusive (Machine.Reach.of_runIf hs)).1⟩

/-- A batch execution of task 1 outlives the queue, and task 1 is enqueued after the restart: it is
under execution twice, and the end of the batch execution removes the mark of the worker. -/
theorem restart_not_exclusive :
    ∃ s t, (machine Nat).runIf Alternates (.idle 0)
        [.start 1, .beginBatch 1 true, .stop, .take 0, .stopped, .start 1,
          .enqueue .offline 1 false, .take 0] = some s ∧
      s.executing = [(.offline, 1), (.offline, 1)] ∧
      (machine Nat).step s (.endBatch 1) = some t ∧ t.executing = [(.offline, 1)] ∧
        (.offline, 1) ∈ s.registry.inflight ∧ (.offline, 1) ∉ t.registry.inflight := by
  have hrun : ((machine Nat).runIf Alternates (.idle 0)
      [.start 1, .beginBatch 1 true, .stop, .take 0, .stopped, .start 1,
        .enqueue .offline 1 false, .take 0]).any (fun s =>
          decide (s.executing = [(.offline, 1), (.offline, 1)] ∧
              (.offline, 1) ∈ s.registry.inflight) &&
            ((machine Nat).step s (.endBatch 1)).any fun t =>
              decide (t.executing = [(.offline, 1)] ∧ (.offline, 1) ∉ t.registry.inflight)) =
        true := by
    decide +kernel
  obtain ⟨s, hs, hfacts⟩ := (Option.any_eq_true _ _).mp hrun
  obtain ⟨hbefore, hafter⟩ := Bool.and_eq_true_iff.mp hfacts
  obtain ⟨t, ht, hend⟩ := (Option.any_eq_true _ _).mp hafter
  obtain ⟨hexecuting, hmarked⟩ := of_decide_eq_true hbefore
  obtain ⟨hleft, hunmarked⟩ := of_decide_eq_true hend
  exact ⟨s, t, hs, hexecuting, ht, hleft, hmarked, hunmarked⟩

end FunasrApi.Queue

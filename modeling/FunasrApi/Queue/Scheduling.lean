import Mathlib.Data.Finset.Dedup
import FunasrApi.Core.History
import FunasrApi.Queue.Workers

/-!
# Queue, registry and executors agree

Between a `start` and the next `stop`, whatever the callers, the workers and the
batch executions do: the queue and the queued set have the same keys, the
in-flight set is what is being executed, nothing is lost or taken twice, and VIP
tasks come first, each class in the order of acceptance.
-/

namespace FunasrApi.Queue

open FunasrApi.Core

variable {Id : Type*}

/-- The entries accepted so far, oldest first. -/
def acceptedEntries : List (QueueEvent Id) → List (Entry Id)
  | [] => []
  | .accepted entry :: past => acceptedEntries past ++ [entry]
  | _ :: past => acceptedEntries past

/-- The entries taken so far, oldest first. -/
def takenEntries : List (QueueEvent Id) → List (Entry Id)
  | [] => []
  | .taken entry :: past => takenEntries past ++ [entry]
  | _ :: past => takenEntries past

/-- The queue's entries and the queued set have the same keys, each once. -/
def QueuedKeys (s : QueueWorkerRuntime Id) : Prop :=
  (↑(s.queue.items.map Entry.task) : Multiset (Option (TaskKey Id))) =
    s.registry.queued.val.map some

/-- The keys under execution are those in flight, each once. -/
def InFlightKeys (s : QueueWorkerRuntime Id) : Prop :=
  (↑s.executing : Multiset (TaskKey Id)) = s.registry.inflight.val

variable [DecidableEq Id]

/-- The entries accepted and not yet taken, in the order of their acceptance. -/
def waitingEntries : List (QueueEvent Id) → List (Entry Id)
  | [] => []
  | .accepted entry :: past => waitingEntries past ++ [entry]
  | .taken entry :: past => (waitingEntries past).erase entry
  | .cleared :: _ => []

/-- A worker takes the earliest accepted VIP entry, and the earliest accepted entry when
no VIP entry is waiting. -/
def TakesNext : QueueEvent Id → List (QueueEvent Id) → Prop
  | .taken entry, past => firstArrival Entry.isVip (waitingEntries past) = some entry
  | _, _ => True

/-- How the queue's content and its order come about. -/
structure Arrivals (s : QueueWorkerRuntime Id) : Prop where
  taken_next : AtEach TakesNext s.log
  /-- Stamps are handed out in increasing order. -/
  stamps : (waitingEntries s.log).Pairwise fun a b => a.order < b.order
  below : ∀ entry ∈ acceptedEntries s.log, entry.order < s.counter
  accepted_nodup : (acceptedEntries s.log).Nodup
  waiting : (waitingEntries s.log).Perm s.queue.items
  conserved : (acceptedEntries s.log).Perm (takenEntries s.log ++ s.queue.items)
  classes : ∀ entry ∈ s.queue.items, entry.priority = queuePriorityFor entry.isVip

/-- The invariant between `start` and `stop`. -/
structure Invariant (s : QueueWorkerRuntime Id) : Prop where
  queued : QueuedKeys s
  inflight : InFlightKeys s
  arrivals : Arrivals s
  running : s.stopping = false

/-- Nothing has been accepted by an idle runtime. -/
theorem invariant_idle (counter : Nat) :
    Invariant (.idle counter : QueueWorkerRuntime Id) where
  queued := rfl
  inflight := rfl
  arrivals := ⟨trivial, .nil, fun _ h => absurd h List.not_mem_nil, List.nodup_nil, .nil, .nil,
    fun _ h => absurd h List.not_mem_nil⟩
  running := rfl

section Enqueue

variable {s : QueueWorkerRuntime Id} {registry : TaskExecutionRegistry Id} {key : TaskKey Id}

/-- An entry that is put for a key which the registry has just accepted. -/
private theorem QueuedKeys.put (h : QueuedKeys s) (hr : s.registry.tryEnqueue key = some registry)
    {entry : Entry Id} (he : entry.task = some key) :
    (↑((s.queue.put entry).items.map Entry.task) : Multiset (Option (TaskKey Id))) =
      registry.queued.val.map some := by
  obtain ⟨hnew, -, hqueued, -⟩ := TaskExecutionRegistry.tryEnqueue_spec hr
  have hperm := (s.queue.put_perm entry).map Entry.task
  rw [hqueued, Finset.insert_val_of_notMem hnew, Multiset.map_cons, ← h,
    Multiset.coe_eq_coe.mpr hperm, List.map_cons, he]
  rfl

/-- The stamp of a new entry is larger than all earlier ones. -/
private theorem Arrivals.put (h : Arrivals s) {t : QueueWorkerRuntime Id} {entry : Entry Id}
    (ho : entry.order = s.counter) (hp : entry.priority = queuePriorityFor entry.isVip)
    (hq : t.queue = s.queue.put entry) (hc : t.counter = s.counter + 1)
    (hl : t.log = .accepted entry :: s.log) : Arrivals t := by
  have hperm := s.queue.put_perm entry
  have hfresh : entry ∉ acceptedEntries s.log := by
    intro hmem
    have := h.below entry hmem
    omega
  have hsub : ∀ a ∈ waitingEntries s.log, a.order < s.counter := by
    intro a ha
    apply h.below
    exact h.conserved.mem_iff.mpr (List.mem_append_right _ (h.waiting.mem_iff.mp ha))
  constructor
  · rw [hl]
    exact ⟨trivial, h.taken_next⟩
  · rw [hl]
    refine List.pairwise_append.mpr ⟨h.stamps, List.pairwise_singleton .., fun a ha b hb => ?_⟩
    rw [List.mem_singleton.mp hb, ho]
    exact hsub a ha
  · rw [hl, hc]
    intro a ha
    rcases List.mem_append.mp ha with ha | ha
    · have := h.below a ha
      omega
    · rw [List.mem_singleton.mp ha]
      omega
  · rw [hl]
    refine List.nodup_append.mpr ⟨h.accepted_nodup, List.nodup_singleton _, fun a ha b hb => ?_⟩
    rw [List.mem_singleton.mp hb]
    rintro rfl
    exact hfresh ha
  · rw [hl, hq]
    have happend : (waitingEntries s.log ++ [entry]).Perm (entry :: waitingEntries s.log) :=
      List.perm_append_singleton ..
    exact (happend.trans (h.waiting.cons entry)).trans hperm.symm
  · rw [hl, hq]
    have happend : (acceptedEntries s.log ++ [entry]).Perm (entry :: acceptedEntries s.log) :=
      List.perm_append_singleton ..
    have hmiddle : (takenEntries s.log ++ entry :: s.queue.items).Perm
        (entry :: (takenEntries s.log ++ s.queue.items)) := List.perm_middle
    have hput := hperm.symm.append_left (takenEntries s.log)
    exact ((happend.trans (h.conserved.cons entry)).trans hmiddle.symm).trans hput
  · rw [hq]
    intro a ha
    rcases List.mem_cons.mp (hperm.mem_iff.mp ha) with rfl | ha
    · exact hp
    · exact h.classes a ha

/-- `enqueue` keeps the invariant. -/
theorem Invariant.enqueue (h : Invariant s) (kind : TaskKind) (taskId : Id) (vip : Bool) :
    Invariant (s.enqueue kind taskId vip) := by
  unfold QueueWorkerRuntime.enqueue
  cases hr : s.registry.tryEnqueue (kind, taskId) with
  | none => exact h
  | some registry =>
    obtain ⟨-, -, -, hinflight⟩ := TaskExecutionRegistry.tryEnqueue_spec hr
    constructor
    · exact h.queued.put hr rfl
    · unfold InFlightKeys
      rw [hinflight]
      exact h.inflight
    · exact h.arrivals.put rfl (by cases vip <;> rfl) rfl rfl rfl
    · exact h.running

end Enqueue

section Take

variable {s : QueueWorkerRuntime Id} {entry : Entry Id}
  {queue : PriorityQueue (@Entry.le Id)}

omit [DecidableEq Id] in
/-- Every entry of the queue is a task, queued under its key. -/
private theorem QueuedKeys.get (h : QueuedKeys s) (hq : s.queue.get? = some (entry, queue)) :
    ∃ key ∈ s.registry.queued, entry.task = some key := by
  have hmem : entry.task ∈ (↑(s.queue.items.map Entry.task) : Multiset (Option (TaskKey Id))) := by
    rw [PriorityQueue.get?_items hq]
    exact List.mem_cons_self ..
  rw [h] at hmem
  obtain ⟨key, hkey, he⟩ := Multiset.mem_map.mp hmem
  exact ⟨key, hkey, he.symm⟩

/-- The keys of the rest of the queue. -/
private theorem QueuedKeys.rest (h : QueuedKeys s) (hq : s.queue.get? = some (entry, queue))
    {key : TaskKey Id} (hkey : key ∈ s.registry.queued) (he : entry.task = some key) :
    (↑(queue.items.map Entry.task) : Multiset (Option (TaskKey Id))) =
      (s.registry.queued.erase key).val.map some := by
  have hcons : s.registry.queued.val = key ::ₘ (s.registry.queued.erase key).val := by
    rw [Finset.erase_val, Multiset.cons_erase hkey]
  unfold QueuedKeys at h
  rw [PriorityQueue.get?_items hq, List.map_cons, he, hcons, Multiset.map_cons,
    ← Multiset.cons_coe] at h
  exact (Multiset.cons_inj_right _).mp h

/-- The released entry is the earliest of its class. -/
private theorem Arrivals.get (h : Arrivals s) {t : QueueWorkerRuntime Id}
    (hq : s.queue.get? = some (entry, queue)) (hqueue : t.queue = queue)
    (hc : t.counter = s.counter) (hl : t.log = .taken entry :: s.log) : Arrivals t := by
  have hitems := PriorityQueue.get?_items hq
  have hmem : entry ∈ s.queue.items := by
    rw [hitems]
    exact List.mem_cons_self ..
  have hrefl : StampLe Entry.priority Entry.order entry entry := .inr ⟨rfl, Nat.le_refl _⟩
  have hleast : ∀ a ∈ waitingEntries s.log, StampLe Entry.priority Entry.order entry a := by
    intro a ha
    have ha := h.waiting.mem_iff.mp ha
    rw [hitems] at ha
    rcases List.mem_cons.mp ha with rfl | ha
    · exact hrefl
    · exact PriorityQueue.get?_le hq a ha
  constructor
  · rw [hl]
    refine ⟨?_, h.taken_next⟩
    refine firstArrival_of_least 0 1 Int.zero_lt_one (fun a ha => ?_) h.stamps
      (h.waiting.mem_iff.mpr hmem) hleast
    exact h.classes a (h.waiting.mem_iff.mp ha)
  · rw [hl]
    exact h.stamps.sublist List.erase_sublist
  · rw [hl, hc]
    exact h.below
  · rw [hl]
    exact h.accepted_nodup
  · rw [hl, hqueue]
    have herase := h.waiting.erase entry
    rw [hitems, List.erase_cons_head] at herase
    exact herase
  · rw [hl, hqueue]
    have hconserved := h.conserved
    rw [hitems] at hconserved
    show (acceptedEntries s.log).Perm (takenEntries s.log ++ [entry] ++ queue.items)
    rw [List.append_assoc]
    exact hconserved
  · rw [hqueue]
    intro a ha
    apply h.classes
    rw [hitems]
    exact List.mem_cons_of_mem _ ha

end Take

section Executing

variable {s : QueueWorkerRuntime Id} {key : TaskKey Id}

omit [DecidableEq Id] in
/-- Replacing one worker changes what is executed by that worker's keys. -/
theorem executing_set (s : QueueWorkerRuntime Id) {index : Nat} {worker : Worker Id}
    (worker' : Worker Id) (hw : s.workers[index]? = some worker) :
    ∃ others : List (TaskKey Id),
      s.executing.Perm (worker.key?.toList ++ others) ∧
        ((s.workers.set index worker').filterMap Worker.key? ++ s.batches).Perm
          (worker'.key?.toList ++ others) := by
  obtain ⟨hi, rfl⟩ := List.getElem?_eq_some_iff.mp hw
  have hcons : ∀ (w : Worker Id) (l : List (Worker Id)),
      (w :: l).filterMap Worker.key? = w.key?.toList ++ l.filterMap Worker.key? := by
    intro w l
    cases hk : w.key? <;> simp [hk]
  refine ⟨(s.workers.eraseIdx index).filterMap Worker.key? ++ s.batches, ?_, ?_⟩
  · have hperm := (List.getElem_cons_eraseIdx_perm hi).filterMap Worker.key?
    rw [hcons] at hperm
    rw [← List.append_assoc]
    exact hperm.symm.append_right _
  · have hperm := (List.set_perm_cons_eraseIdx hi worker').filterMap Worker.key?
    rw [hcons] at hperm
    rw [← List.append_assoc]
    exact hperm.append_right _

/-- A key of which an execution starts. -/
theorem InFlightKeys.begin (h : InFlightKeys s) (hkey : key ∉ s.registry.inflight)
    {executing : List (TaskKey Id)} (hperm : executing.Perm (key :: s.executing)) :
    (↑executing : Multiset (TaskKey Id)) = (insert key s.registry.inflight).val := by
  rw [Finset.insert_val_of_notMem hkey, ← h, Multiset.coe_eq_coe.mpr hperm]
  rfl

/-- A key of which the execution ends. -/
theorem InFlightKeys.finish (h : InFlightKeys s) {executing : List (TaskKey Id)}
    (hperm : s.executing.Perm (key :: executing)) :
    (↑executing : Multiset (TaskKey Id)) = (s.registry.inflight.erase key).val := by
  have hcons : key ::ₘ ↑executing = s.registry.inflight.val := by
    rw [← h, Multiset.coe_eq_coe.mpr hperm]
    rfl
  have hkey : key ∈ s.registry.inflight := by
    rw [← Finset.mem_val, ← hcons]
    exact Multiset.mem_cons_self ..
  rw [Finset.erase_val]
  rw [← Multiset.cons_erase (Finset.mem_val.mpr hkey)] at hcons
  exact (Multiset.cons_inj_right key).mp hcons

omit [DecidableEq Id] in
/-- `start` adds workers that execute nothing. -/
theorem InFlightKeys.start (h : InFlightKeys s) (workerCount : Nat) :
    InFlightKeys (s.start workerCount) := by
  unfold QueueWorkerRuntime.start
  split
  · exact h
  · have hnone : (List.replicate (max 1 workerCount) (.waiting : Worker Id)).filterMap
        Worker.key? = [] := List.filterMap_replicate_of_none rfl
    unfold InFlightKeys QueueWorkerRuntime.executing
    rw [List.filterMap_append, hnone, List.append_nil]
    exact h

/-- The worker at `index` begins with a key that is not in flight. -/
theorem InFlightKeys.take (h : InFlightKeys s) {index : Nat}
    (hw : s.workers[index]? = some .waiting) (hkey : key ∉ s.registry.inflight) :
    (↑((s.workers.set index (.processing key)).filterMap Worker.key? ++ s.batches) :
      Multiset (TaskKey Id)) = (insert key s.registry.inflight).val := by
  obtain ⟨others, hbefore, hafter⟩ := executing_set s (.processing key) hw
  have hperm : s.executing.Perm others := hbefore
  exact h.begin hkey (hafter.trans (hperm.symm.cons key))

omit [DecidableEq Id] in
/-- A worker that exits while it waits was executing nothing. -/
theorem InFlightKeys.exit (h : InFlightKeys s) {index : Nat}
    (hw : s.workers[index]? = some .waiting) :
    (↑((s.workers.set index .exited).filterMap Worker.key? ++ s.batches) :
      Multiset (TaskKey Id)) = s.registry.inflight.val := by
  obtain ⟨others, hbefore, hafter⟩ := executing_set s .exited hw
  exact (Multiset.coe_eq_coe.mpr (hafter.trans hbefore.symm)).trans h

/-- The worker at `index` ends with its key. -/
theorem InFlightKeys.set_finish (h : InFlightKeys s) {index : Nat} {worker : Worker Id}
    (hw : s.workers[index]? = some (.processing key)) (hidle : worker.key? = none) :
    (↑((s.workers.set index worker).filterMap Worker.key? ++ s.batches) :
      Multiset (TaskKey Id)) = (s.registry.inflight.erase key).val := by
  obtain ⟨others, hbefore, hafter⟩ := executing_set s worker hw
  rw [hidle] at hafter
  have hperm : s.executing.Perm (key :: others) := hbefore
  exact h.finish (hperm.trans (hafter.symm.cons key))

/-- The end of `process_task` in a worker. -/
theorem InFlightKeys.complete (h : InFlightKeys s) {t : QueueWorkerRuntime Id} {index : Nat}
    (ht : s.complete index = some t) : InFlightKeys t := by
  unfold QueueWorkerRuntime.complete at ht
  split at ht
  · rename_i key hw
    obtain rfl := Option.some.inj ht
    exact h.set_finish hw rfl
  · cases ht

/-- The start of a batch execution. -/
theorem InFlightKeys.beginBatch (h : InFlightKeys s) (taskId : Id) (found : Bool) :
    InFlightKeys (s.beginBatch taskId found) := by
  unfold QueueWorkerRuntime.beginBatch
  split
  · cases hr : s.registry.tryBeginExternal (.offline, taskId) with
    | none => exact h
    | some registry =>
      obtain ⟨-, hnew, -, hinflight⟩ := TaskExecutionRegistry.tryBeginExternal_spec hr
      unfold InFlightKeys
      rw [hinflight]
      exact h.begin hnew List.perm_middle
  · exact h

/-- The end of a batch execution. -/
theorem InFlightKeys.endBatch (h : InFlightKeys s) {t : QueueWorkerRuntime Id} {taskId : Id}
    (ht : s.endBatch taskId = some t) : InFlightKeys t := by
  unfold QueueWorkerRuntime.endBatch at ht
  split at ht
  · rename_i hmem
    obtain rfl := Option.some.inj ht
    have herase := (List.perm_cons_erase hmem).append_left (s.workers.filterMap Worker.key?)
    exact h.finish (herase.trans List.perm_middle)
  · cases ht

/-- `start` changes neither the queue nor what is queued. -/
theorem Invariant.start (h : Invariant s) (workerCount : Nat) :
    Invariant (s.start workerCount) := by
  have hinflight := h.inflight.start workerCount
  unfold QueueWorkerRuntime.start at hinflight ⊢
  split at hinflight
  · next hrunning =>
    rw [if_pos hrunning]
    exact h
  · next hrunning =>
    rw [if_neg hrunning]
    exact { h with inflight := hinflight, arrivals := { h.arrivals with } }

/-- A worker that takes an entry keeps the invariant. -/
theorem Invariant.take (h : Invariant s) {t : QueueWorkerRuntime Id} {index : Nat}
    (ht : s.take index = some t) : Invariant t := by
  unfold QueueWorkerRuntime.take at ht
  split at ht
  · rename_i entry queue hw hq
    obtain ⟨key, hkey, he⟩ := h.queued.get hq
    simp only [he, Option.some.injEq] at ht
    subst ht
    constructor
    · exact h.queued.rest hq hkey he
    · exact h.inflight.take hw (s.registry.disjoint key hkey)
    · exact h.arrivals.get hq rfl rfl rfl
    · exact h.running
  · cases ht

/-- The end of `process_task` keeps the invariant. -/
theorem Invariant.complete (h : Invariant s) {t : QueueWorkerRuntime Id} {index : Nat}
    (ht : s.complete index = some t) : Invariant t := by
  have hinflight := h.inflight.complete ht
  unfold QueueWorkerRuntime.complete at ht
  split at ht
  · obtain rfl := Option.some.inj ht
    exact { h with inflight := hinflight, arrivals := { h.arrivals with } }
  · cases ht

/-- The start of a batch execution keeps the invariant. -/
theorem Invariant.beginBatch (h : Invariant s) (taskId : Id) (found : Bool) :
    Invariant (s.beginBatch taskId found) := by
  have hinflight := h.inflight.beginBatch taskId found
  unfold QueueWorkerRuntime.beginBatch at hinflight ⊢
  cases found with
  | false => exact h
  | true =>
    cases hr : s.registry.tryBeginExternal (.offline, taskId) with
    | none => exact h
    | some registry =>
      obtain ⟨-, -, hqueued, -⟩ := TaskExecutionRegistry.tryBeginExternal_spec hr
      simp only [if_true, hr] at hinflight ⊢
      refine { h with queued := ?_, inflight := hinflight, arrivals := { h.arrivals with } }
      unfold QueuedKeys
      rw [hqueued]
      exact h.queued

/-- The end of a batch execution keeps the invariant. -/
theorem Invariant.endBatch (h : Invariant s) {t : QueueWorkerRuntime Id} {taskId : Id}
    (ht : s.endBatch taskId = some t) : Invariant t := by
  have hinflight := h.inflight.endBatch ht
  unfold QueueWorkerRuntime.endBatch at ht
  split at ht
  · obtain rfl := Option.some.inj ht
    exact { h with inflight := hinflight, arrivals := { h.arrivals with } }
  · cases ht

end Executing

/-- Every step but `stop` keeps the invariant. -/
theorem Invariant.step {s t : QueueWorkerRuntime Id} {a : QueueAction Id} (h : Invariant s)
    (ha : a ≠ .stop) (hs : step s a = some t) : Invariant t := by
  cases a with
  | start workerCount =>
    obtain rfl := Option.some.inj hs
    exact h.start workerCount
  | enqueue kind taskId vip =>
    obtain rfl := Option.some.inj hs
    exact h.enqueue kind taskId vip
  | take index => exact h.take hs
  | complete index => exact h.complete hs
  | beginBatch taskId found =>
    obtain rfl := Option.some.inj hs
    exact h.beginBatch taskId found
  | endBatch taskId => exact h.endBatch hs
  | stop => exact absurd rfl ha
  | cancelWorker _ | stopped =>
    -- these steps belong to a `stop` that is under way
    have hrunning := h.running
    simp [Queue.step, QueueWorkerRuntime.cancelWorker, QueueWorkerRuntime.stopped, hrunning] at hs

/-- States of a runtime's lifetime, from an idle runtime to the next `stop`. -/
def Lifetime (counter : Nat) (s : QueueWorkerRuntime Id) : Prop :=
  (machine Id).Reach (fun _ a => a ≠ .stop) (.idle counter) s

/-- What callers, workers and batch executions can rely on between `start` and `stop`. -/
structure Scheduled (s : QueueWorkerRuntime Id) : Prop where
  /-- The queue's entries carry exactly the keys of the queued set, each once. -/
  queued : (s.queue.items.map Entry.task).Nodup ∧
    ∀ task, task ∈ s.queue.items.map Entry.task ↔ ∃ key ∈ s.registry.queued, task = some key
  disjoint : Disjoint s.registry.queued s.registry.inflight
  /-- What is in flight is what is being executed, no key by two executors. -/
  inflight : s.executing.Nodup ∧ s.executing.toFinset = s.registry.inflight
  /-- Each accepted entry was taken once or is still queued. -/
  conserved : (acceptedEntries s.log).Nodup ∧
    (acceptedEntries s.log).Perm (takenEntries s.log ++ s.queue.items)
  /-- Each taken entry was the earliest accepted one of the VIP entries that were waiting,
  or of all waiting entries when there was no VIP entry. -/
  order : ∀ later entry past, s.log = later ++ .taken entry :: past →
    firstArrival Entry.isVip (waitingEntries past) = some entry

/-- In every state of a lifetime queue, registry and executors agree. -/
theorem lifetime_scheduled {counter : Nat} {s : QueueWorkerRuntime Id}
    (h : Lifetime counter s) : Scheduled s := by
  have hinv : Invariant s :=
    Machine.Reach.invariant h (invariant_idle counter) fun _ _ _ ht ha hs => ht.step ha hs
  constructor
  · have hqueued := hinv.queued
    unfold QueuedKeys at hqueued
    constructor
    · rw [← Multiset.coe_nodup, hqueued]
      exact s.registry.queued.nodup.map (Option.some_injective _)
    · intro task
      rw [← Multiset.mem_coe, hqueued, Multiset.mem_map]
      simp only [Finset.mem_val, eq_comm]
  · rw [Finset.disjoint_left]
    exact fun key => s.registry.disjoint key
  · have hinflight := hinv.inflight
    unfold InFlightKeys at hinflight
    constructor
    · rw [← Multiset.coe_nodup, hinflight]
      exact s.registry.inflight.nodup
    · ext key
      rw [List.mem_toFinset, ← Multiset.mem_coe, hinflight, Finset.mem_val]
  · exact ⟨hinv.arrivals.accepted_nodup, hinv.arrivals.conserved⟩
  · intro later entry past he
    exact hinv.arrivals.taken_next.at he

/-- Two workers and a batch on three tasks: the VIP task is taken first, a key in flight is
refused to the batch and to a second enqueue, and comes back after its execution. -/
def lifetimeRun : List (QueueAction Nat) :=
  [.enqueue .offline 1 false, .start 2, .enqueue .offline 2 true, .enqueue .spk 1 false,
    .enqueue .offline 1 true, .take 0, .beginBatch 2 true, .take 1, .beginBatch 3 true,
    .complete 0, .enqueue .offline 2 false, .take 0, .endBatch 3, .complete 1]

/-- The state after the run is scheduled. -/
theorem lifetimeRun_scheduled :
    ∃ s, (machine Nat).run (.idle 0) lifetimeRun = some s ∧ Scheduled s := by
  refine ⟨_, rfl, ?_⟩
  have hok : ∀ a ∈ lifetimeRun, a ≠ .stop := by decide
  have h : Lifetime 0 _ := Machine.Reach.of_run lifetimeRun (fun a ha _ => hok a ha) rfl
  exact lifetime_scheduled h

end FunasrApi.Queue

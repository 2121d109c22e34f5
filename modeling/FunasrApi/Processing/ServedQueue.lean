import FunasrApi.Processing.Finishing
import FunasrApi.Processing.Isolation
import FunasrApi.Queue.TaskBoard

/-!
# The queue serves every task

The queue with both kinds of tasks, whose rows become what runs of the two `process_task` make of
them. A run is known by its own row: what it does depends on no other row, and changes no other
row. So no task is lost while the queue runs, and none is processed twice at a time.
-/

namespace FunasrApi.Processing

open FunasrApi.Core FunasrApi.Queue FunasrApi.Repositories FunasrApi.Tasks

variable {Id Segment Turn Json Duration Hotwords : Type}

/-- The row of a task of either kind. -/
inductive TaskRow (Id Json Duration : Type)
  | offline (row : OfflineTask Id Json Duration)
  | spk (row : SpkTask Id Json Duration)

/-- The status of a task. -/
def TaskRow.status : TaskRow Id Json Duration → TaskStatus
  | .offline row => row.status
  | .spk row => row.status

variable [DecidableEq Id]

/-- The task's own row in the world of a run. -/
def OfflineTaskService.ownRow (service : OfflineTaskService Id Segment Json Duration Hotwords)
    (w : ProcessingWorld Id Json Duration) : Option (TaskRow Id Json Duration) :=
  (w.repository.getById service.taskId).map .offline

/-- The task's own row in the world of a run. -/
def SpkTaskService.ownRow (service : SpkTaskService Id Turn Json Duration)
    (w : SpkWorld Id Json Duration) : Option (TaskRow Id Json Duration) :=
  (w.repository.getTask service.taskId).map .spk

/-- The runs of the two services: one is on the row that the task has when it begins, and its
exceptions are handled. -/
inductive ServiceRuns (Segment Turn Hotwords : Type) : TaskKey Id →
    Option (TaskRow Id Json Duration) → List (Option (TaskRow Id Json Duration)) → Prop
  | offline (service : OfflineTaskService Id Segment Json Duration Hotwords)
      (repository : SqlTaskRepository Id Json Duration) (resultFile : Option String)
      (h : service.Handles (repository.getById service.taskId)) :
    ServiceRuns Segment Turn Hotwords (.offline, service.taskId)
      ((repository.getById service.taskId).map .offline)
      ((service.processTask (.start repository resultFile)).moments.map service.ownRow)
  | spk (service : SpkTaskService Id Turn Json Duration)
      (repository : SqlSpeakerTaskRepository Id Json Duration)
      (h : service.Handles (repository.getTask service.taskId)) :
    ServiceRuns Segment Turn Hotwords (.spk, service.taskId)
      ((repository.getTask service.taskId).map .spk)
      ((service.processTask ⟨repository, false, none⟩).moments.map service.ownRow)

/-- Both services finish their tasks. -/
theorem serviceRuns_finishing : TaskBoard.Finishing (@TaskRow.status Id Json Duration)
    (ServiceRuns Segment Turn Hotwords) := by
  intro key row moments hrun
  cases hrun with
  | offline service repository resultFile h =>
    refine ⟨_, _, List.map_append, fun row hrow => ?_⟩
    obtain ⟨own, hown, rfl⟩ := Option.map_eq_some_iff.mp hrow
    exact service.processTask_finishes ⟨rfl, rfl⟩ rfl h own hown
  | spk service repository h =>
    refine ⟨_, _, List.map_append, fun row hrow => ?_⟩
    obtain ⟨own, hown, rfl⟩ := Option.map_eq_some_iff.mp hrow
    exact service.processTask_finishes rfl h own hown

/-- What a user of the service can rely on while the queue runs. -/
structure Served (board : TaskBoard Id (TaskRow Id Json Duration)) : Prop where
  /-- An unfinished task is in the queue once, or processed, or its submission has not ended. -/
  unfinished : ∀ key row, board.row key = some row → ¬ TaskBoard.Finished TaskRow.status row →
    (board.runtime.queue.items.map Entry.task).count (some key) = 1 ∨
      key ∈ board.runtime.executing ∨ key ∈ board.submitting
  /-- A task that says so is being processed, by one worker or batch. -/
  processing : ∀ key row, board.row key = some row → row.status = .processing →
    board.runtime.executing.count key = 1
  /-- No task is processed twice at a time. -/
  once : board.runtime.executing.Nodup
  /-- When nothing is left to do, all tasks are completed or failed. -/
  quiet : board.runtime.queue.items = [] → board.runtime.executing = [] →
    board.submitting = [] → ∀ key row, board.row key = some row →
      row.status = .completed ∨ row.status = .failed

/-- Accounted tasks are served. -/
theorem served_of_accounted {board : TaskBoard Id (TaskRow Id Json Duration)}
    (h : TaskBoard.Accounted TaskRow.status board) : Served board := by
  have hnodup : board.runtime.executing.Nodup := by
    rw [← Multiset.coe_nodup, h.queue.inflight]
    exact board.runtime.registry.inflight.nodup
  have hqueued : ∀ key ∈ board.runtime.registry.queued,
      (board.runtime.queue.items.map Entry.task).count (some key) = 1 := by
    intro key hkey
    have hitems : (board.runtime.queue.items.map Entry.task).Nodup := by
      rw [← Multiset.coe_nodup, h.queue.queued]
      exact board.runtime.registry.queued.nodup.map (Option.some_injective _)
    refine List.count_eq_one_of_mem hitems ?_
    rw [← Multiset.mem_coe, h.queue.queued]
    exact Multiset.mem_map_of_mem _ hkey
  have hunfinished : ∀ key row, board.row key = some row →
      ¬ TaskBoard.Finished TaskRow.status row →
        (board.runtime.queue.items.map Entry.task).count (some key) = 1 ∨
          key ∈ board.runtime.executing ∨ key ∈ board.submitting := by
    intro key row hrow hnot
    rcases h.tracked key row hrow hnot with htracked | hsubmitting
    · rcases (TaskExecutionRegistry.isTracked_eq_true _ _).mp htracked with hkey | hkey
      · exact .inl (hqueued key hkey)
      · exact .inr (.inl ((TaskBoard.mem_inflight_iff h.queue.inflight).mp hkey))
    · exact .inr (.inr hsubmitting)
  refine ⟨hunfinished, fun key row hrow hprocessing => ?_, hnodup,
    fun hitems hidle hnone key row hrow => ?_⟩
  · refine List.count_eq_one_of_mem hnodup ?_
    exact (TaskBoard.mem_inflight_iff h.queue.inflight).mp (h.processing key row hrow hprocessing)
  · by_contra hnot
    have hcount := hunfinished key row hrow hnot
    simp [hitems, hidle, hnone] at hcount

/-- While the queue runs, in every interleaving of submissions, workers, batches and deletions, no
task is lost and none is processed twice at a time. -/
theorem queue_served {board next : TaskBoard Id (TaskRow Id Json Duration)}
    (hstarted : TaskBoard.Started TaskRow.status board)
    (h : (TaskBoard.machine Id (TaskRow Id Json Duration)).Reach
      (TaskBoard.Proper TaskRow.status (ServiceRuns Segment Turn Hotwords)) board next) :
    Served next :=
  served_of_accounted (TaskBoard.reachable_accounted serviceRuns_finishing hstarted h)

/-- A queue with two workers and no task. -/
def emptyBoard : TaskBoard ℕ (TaskRow ℕ ℕ ℕ) where
  runtime := (QueueWorkerRuntime.idle 0).start 2
  row _ := none
  moments _ := []
  submitting := []

/-- Task 7 is submitted while task 8 is refused, and the first worker takes it. -/
def submissions : List (BoardAction ℕ (TaskRow ℕ ℕ ℕ)) :=
  [.createTask (.offline, 7) (.offline (uploadedRow 7)),
    .createTask (.offline, 8) (.offline (uploadedRow 8)), .enqueue (.offline, 7) false,
    .refuse (.offline, 8) (.offline { uploadedRow 8 with status := .failed }),
    .take 0 ((quietService.processTask (.start ⟨[uploadedRow 7]⟩ none)).moments.map
      quietService.ownRow)]

/-- The run on task 7, up to its end. -/
def remainingRun : List (BoardAction ℕ (TaskRow ℕ ℕ ℕ)) :=
  List.replicate 9 (.access (.offline, 7)) ++ [.complete 0]

/-- In the end task 7 is completed and task 8 is failed. -/
theorem emptyBoard_served :
    ∃ next, (TaskBoard.machine ℕ (TaskRow ℕ ℕ ℕ)).run emptyBoard
        (submissions ++ remainingRun) = some next ∧
      (next.row (.offline, 7)).map TaskRow.status = some .completed ∧
      (next.row (.offline, 8)).map TaskRow.status = some .failed ∧ Served next := by
  refine ⟨_, rfl, rfl, rfl, ?_⟩
  have hstarted : TaskBoard.Started TaskRow.status emptyBoard :=
    ⟨(invariant_idle 0).start 2, rfl, fun _ _ hrow => nomatch hrow⟩
  have hidle : (TaskBoard.machine ℕ (TaskRow ℕ ℕ ℕ)).Reach
      (TaskBoard.Proper TaskRow.status (ServiceRuns ℕ ℕ Unit)) emptyBoard emptyBoard := .refl
  have hcreated := hidle.tail (.createTask (.offline, 7) (.offline (uploadedRow 7)))
    (by exact ⟨rfl, rfl⟩) rfl
  have hboth := hcreated.tail (.createTask (.offline, 8) (.offline (uploadedRow 8)))
    (by exact ⟨rfl, rfl⟩) rfl
  have henqueued := hboth.tail (.enqueue (.offline, 7) false) (by trivial) rfl
  have hrefused := henqueued.tail
    (.refuse (.offline, 8) (.offline { uploadedRow 8 with status := .failed })) (by rfl) rfl
  have htaken := hrefused.tail (.take 0
    ((quietService.processTask (.start ⟨[uploadedRow 7]⟩ none)).moments.map
      quietService.ownRow)) ?_ rfl
  · refine queue_served hstarted (htaken.trans (.of_run remainingRun ?_ rfl))
    intro action haction board
    simp only [remainingRun, List.mem_append, List.mem_replicate, List.mem_singleton] at haction
    obtain ⟨-, rfl⟩ | rfl := haction <;> trivial
  · intro runtime key htake hkey
    obtain rfl := Option.some.inj htake
    obtain rfl := Option.some.inj hkey
    exact .offline quietService ⟨[uploadedRow 7]⟩ none
      ⟨rfl, fun _ _ => ⟨_, rfl⟩, rfl⟩

end FunasrApi.Processing

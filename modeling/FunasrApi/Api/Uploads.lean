import FunasrApi.Queue.Recovery
import FunasrApi.Tasks.SubmissionOutcome

/-!
# The upload routes

The four routes that create tasks, with the status code of every exception. What the
stores know of one task is its view; a request touches the view of its own task only.
So over any run of requests a task that was answered with 200 stays in its table, with
its audio and one entry in the queue, and a task that was refused is not queued.
-/

namespace FunasrApi.Api

open FunasrApi.Core FunasrApi.Queue FunasrApi.Tasks

variable {Id Audio : Type}

/-- What a route answers. -/
inductive Answer (Id : Type)
  /-- 200. -/
  | ok (response : SubmissionResponse Id)
  /-- `JSONResponse(status_code=…, content={"error": …})`. -/
  | error (statusCode : ℕ) (message : String)

/-- The status code of an answer. -/
def Answer.statusCode : Answer Id → ℕ
  | .ok _ => 200
  | .error statusCode _ => statusCode

/-- The part of `AppServices` that the upload routes use. -/
structure AppServices (Id Audio : Type) where
  /-- `is_engine_enabled`. -/
  isEngineEnabled : TaskKind → Bool
  taskSubmissionService : TaskSubmissionService Id Audio

/-- `is_task_submission_available`, for the modes that have tasks. -/
def AppServices.isTaskSubmissionAvailable (services : AppServices Id Audio) (mode : TaskKind) :
    Bool :=
  services.isEngineEnabled mode && services.taskSubmissionService.canAccept mode

/-- The `except` clauses of `submit_upload_or_error`. -/
def uploadError (disabledError : String) (badRequest : SubmissionError → Option String) :
    SubmissionError → Answer Id
  | .unavailable _ => .error 503 disabledError
  | .uploadTooLarge message => .error 413 message
  | error =>
    match badRequest error with
    | some message => .error 400 message
    | none => .error 500 "Internal Server Error"

/-- The `except` clauses of `submit_rerecognition_or_error`. -/
def rerecognitionError (disabledError : String) : SubmissionError → Answer Id
  | .unavailable _ => .error 503 disabledError
  | .sourceNotFound _ => .error 404 "来源任务不存在"
  | .validation message | .invalidHotwords message => .error 400 message
  | .conflict message => .error 409 message
  | .uploadTooLarge message => .error 413 message
  | .archiveRestore _ => .error 502 "归档文件恢复失败"
  | .storage | .repository => .error 500 "Internal Server Error"

/-- `bad_request_errors=(InvalidHotwordFormatError,)`. -/
def invalidHotwordFormat : SubmissionError → Option String
  | .invalidHotwords message => some message
  | _ => none

/-- The `disabled_error` of a route. -/
def disabledError : SubmissionRequest Id Audio → String
  | .submitOffline .. => "OFFLINE 模式未启用"
  | .submitSpeaker .. => "SPK 模式未启用"
  | .rerecognizeOffline .. => "OFFLINE 模式未启用或任务队列不可用"
  | .rerecognizeSpeaker .. => "SPK 模式未启用或任务队列不可用"

/-- The answer of a route to an exception. -/
def errorAnswer (request : SubmissionRequest Id Audio) : SubmissionError → Answer Id :=
  match request with
  | .submitOffline .. => uploadError (disabledError request) invalidHotwordFormat
  | .submitSpeaker .. => uploadError (disabledError request) fun _ => none
  | .rerecognizeOffline .. | .rerecognizeSpeaker .. => rerecognitionError (disabledError request)

section Routes

variable [DecidableEq Id]

/-- One request to its route. -/
def AppServices.serve (services : AppServices Id Audio) (request : SubmissionRequest Id Audio)
    (w : SubmissionWorld Id Audio) : Answer Id × SubmissionWorld Id Audio :=
  if services.isTaskSubmissionAvailable request.kind then
    let outcome := services.taskSubmissionService.run request w
    match outcome.result with
    | .ok response => (.ok response, outcome.final)
    | .error error => (errorAnswer request error, outcome.final)
  else (.error 503 (disabledError request), w)

/-- The requests one after the other, each with the services as they are then. -/
def serveAll : List (AppServices Id Audio × SubmissionRequest Id Audio) →
    SubmissionWorld Id Audio → List (Answer Id) × SubmissionWorld Id Audio
  | [], w => ([], w)
  | (services, request) :: rest, w =>
    let served := services.serve request w
    let later := serveAll rest served.2
    (served.1 :: later.1, later.2)

end Routes

/-- What the stores know of one task. -/
@[ext]
structure View (Id Audio : Type) where
  /-- Its rows in the two tables. -/
  rows : TaskKind → List (TaskRecord Id)
  /-- The audio in its temp directory. -/
  audio : Option Audio
  /-- The registry tracks it. -/
  tracked : TaskKind → Bool
  /-- Its entries in the queue. -/
  entries : TaskKind → List (Entry Id)

namespace View

/-- The view without anything. -/
def empty : View Id Audio := ⟨fun _ => [], none, fun _ => false, fun _ => []⟩

/-- A row and audio of a task that is not in the queue. -/
def placed (kind : TaskKind) (row : Option (TaskRecord Id)) (audio : Option Audio) :
    View Id Audio where
  rows k := if k = kind then row.toList else []
  audio := audio
  tracked _ := false
  entries _ := []

/-- A row with its audio, and one entry of the priority that the row asks for. -/
def queued (kind : TaskKind) (task : TaskRecord Id) (audio : Audio) (order : ℕ) :
    View Id Audio where
  rows k := if k = kind then [task] else []
  audio := some audio
  tracked k := k = kind
  entries k := if k = kind then [⟨queuePriorityFor task.vip, order, some (kind, task.id)⟩] else []

end View

section Views

variable [DecidableEq Id]

/-- The entries of a key in a queue. -/
def entriesOf (key : TaskKey Id) (runtime : QueueWorkerRuntime Id) : List (Entry Id) :=
  runtime.queue.items.filter fun entry => entry.task = some key

/-- What a world knows of the task `id`. -/
def viewOf (id : Id) (w : SubmissionWorld Id Audio) : View Id Audio where
  rows kind := (w.tables kind).rows.filter fun task => task.id = id
  audio := w.temp id
  tracked kind := w.runtime.registry.isTracked (kind, id)
  entries kind := entriesOf (kind, id) w.runtime

omit [DecidableEq Id] in
/-- An entry that is put into the queue has its place among those of its key, and the entries of
the other keys stay as they are. -/
theorem filter_put {p : Entry Id → Bool} {entry : Entry Id} {queue : PriorityQueue (@Entry.le Id)}
    (h : p entry = false) : (queue.put entry).items.filter p = queue.items.filter p := by
  have hplace : (queue.put entry).items = _ := List.orderedInsert_eq_take_drop Entry.le entry _
  rw [hplace, List.filter_append, List.filter_cons_of_neg (by simp [h]), ← List.filter_append,
    List.takeWhile_append_dropWhile]

/-- Another key is not touched by `enqueue`. -/
theorem enqueue_other (s : QueueWorkerRuntime Id) {kind : TaskKind} {id : Id} (vip : Bool)
    {key : TaskKey Id} (h : key ≠ (kind, id)) :
    (s.enqueue kind id vip).registry.isTracked key = s.registry.isTracked key ∧
      entriesOf key (s.enqueue kind id vip) = entriesOf key s := by
  constructor
  · rw [Bool.eq_iff_iff, QueueWorkerRuntime.enqueue_isTracked]
    simp [h]
  · unfold QueueWorkerRuntime.enqueue entriesOf
    split
    · rfl
    · exact filter_put (by simpa using fun heq : (kind, id) = key => h heq.symm)

/-- A key that is new to the queue has one entry then. -/
theorem enqueue_new {s : QueueWorkerRuntime Id} {kind : TaskKind} {id : Id} (vip : Bool)
    (htracked : s.registry.isTracked (kind, id) = false) (hentries : entriesOf (kind, id) s = []) :
    (s.enqueue kind id vip).registry.isTracked (kind, id) = true ∧
      entriesOf (kind, id) (s.enqueue kind id vip) =
        [⟨queuePriorityFor vip, s.counter, some (kind, id)⟩] := by
  constructor
  · rw [QueueWorkerRuntime.enqueue_isTracked]
    exact .inr rfl
  · unfold QueueWorkerRuntime.enqueue
    split
    · next hnone =>
      rw [TaskExecutionRegistry.tryEnqueue_none hnone] at htracked
      cases htracked
    · have hperm := (s.queue.put_perm ⟨queuePriorityFor vip, s.counter, some (kind, id)⟩).filter
        fun entry => entry.task = some (kind, id)
      rw [List.filter_cons_of_pos (by simp)] at hperm
      unfold entriesOf at hentries ⊢
      rw [hentries] at hperm
      exact List.perm_singleton.mp hperm

end Views

section Accounts

variable [DecidableEq Id] {service : TaskSubmissionService Id Audio} {kind : TaskKind}
  {w v : SubmissionWorld Id Audio} {row : Option (TaskRecord Id)} {audio : Option Audio} {id : Id}

/-- Nothing of the task is there. -/
theorem fresh_of_view (h : viewOf service.newTaskId w = .empty) : Fresh service w where
  rows kind task htask heq := by
    have hnone : (w.tables kind).rows.filter (fun task => task.id = service.newTaskId) = [] :=
      congrFun (congrArg View.rows h) kind
    have hmem : task ∈ (w.tables kind).rows.filter (fun task => task.id = service.newTaskId) :=
      List.mem_filter.mpr ⟨htask, by simpa using heq⟩
    rw [hnone] at hmem
    cases hmem
  temp := congrArg View.audio h
  tracked kind := congrFun (congrArg View.tracked h) kind

/-- A submission does not change the view of another task. -/
theorem view_other (h : At id kind w row audio v) (hrow : ∀ task ∈ row, task.id = id) {other : Id}
    (hne : other ≠ id) : viewOf other v = viewOf other w := by
  ext1
  · funext k
    by_cases hk : k = kind
    · subst hk
      have hothers : row.toList.filter (fun task => task.id = other) = [] := by
        rw [List.filter_eq_nil_iff]
        intro task htask
        have hid := hrow task (Option.mem_toList.mp htask)
        simpa [hid] using hne.symm
      simp only [viewOf, h.rows, List.filter_append, hothers, List.append_nil]
    · simp only [viewOf, h.other k hk]
  · exact h.temp other hne
  · simp only [viewOf, h.runtime]
  · simp only [viewOf, h.runtime]

/-- Of its own task it leaves the row and the audio. -/
theorem view_self (h : At id kind w row audio v) (hrow : ∀ task ∈ row, task.id = id)
    (hempty : viewOf id w = .empty) : viewOf id v = .placed kind row audio := by
  have hrows (k : TaskKind) : (w.tables k).rows.filter (fun task => task.id = id) = [] :=
    congrFun (congrArg View.rows hempty) k
  ext1
  · funext k
    by_cases hk : k = kind
    · subst hk
      have hown : row.toList.filter (fun task => task.id = id) = row.toList := by
        rw [List.filter_eq_self]
        exact fun task htask => by simpa using hrow task (Option.mem_toList.mp htask)
      simp only [viewOf, View.placed, h.rows, List.filter_append, hrows, hown, List.nil_append,
        if_true]
    · simp only [viewOf, View.placed, h.other k hk, hrows, if_neg hk]
  · exact h.audio
  · simp only [viewOf, h.runtime]
    exact congrArg View.tracked hempty
  · simp only [viewOf, h.runtime]
    exact congrArg View.entries hempty

theorem view_nothing (h : At id kind w none none v) (hempty : viewOf id w = .empty) :
    viewOf id v = .empty := by
  rw [view_self h (fun _ hnone => by cases hnone) hempty]
  ext1
  · funext k
    exact ite_self _
  · rfl
  · rfl
  · rfl

omit [DecidableEq Id] in
theorem own_row {task : TaskRecord Id} (hid : task.id = id) : ∀ new ∈ some task, new.id = id := by
  intro new hnew
  rw [← Option.some.inj hnew]
  exact hid

/-- What an answer says of the task. With 200 the task is pending, with its audio and one entry in
the queue, and the response is its row. With an error the task is not in the queue; there is
nothing of it, unless the queue refused it, and then it has failed and its audio is gone, or it is
still pending because not even its failure could be recorded. -/
def Accounted (service : TaskSubmissionService Id Audio) (kind : TaskKind) (view : View Id Audio) :
    Answer Id → Prop
  | .ok response => response.taskId = service.newTaskId ∧ ∃ task content order,
      Describes response task ∧ task.status = .pending ∧ view = .queued kind task content order
  | .error statusCode _ => 400 ≤ statusCode ∧ (view = .empty ∨ statusCode = 503 ∧
      ((∃ task, task.status = .failed ∧ view = .placed kind (some task) none) ∨
        service.faults.recordErrorRaises = true ∧ ∃ task content, task.status = .pending ∧
          view = .placed kind (some task) (some content)))

omit [DecidableEq Id] in
/-- The exceptions with their codes. -/
theorem errorAnswer_spec (request : SubmissionRequest Id Audio) (error : SubmissionError) :
    ∃ statusCode message, (errorAnswer request error : Answer Id) = .error statusCode message ∧
      400 ≤ statusCode ∧ ((∃ text, error = .unavailable text) → statusCode = 503) := by
  cases request <;> cases error <;>
    exact ⟨_, _, rfl, by decide, fun ⟨_, heq⟩ => by first | rfl | cases heq⟩

/-- The entry makes the view of a placed task that of a queued one, and no other view changes. -/
theorem view_enqueue {task : TaskRecord Id} {content : Audio}
    (h : viewOf task.id v = .placed kind (some task) (some content)) :
    viewOf task.id { v with runtime := v.runtime.enqueue kind task.id task.vip } =
        .queued kind task content v.runtime.counter ∧
      ∀ other, other ≠ task.id →
        viewOf other { v with runtime := v.runtime.enqueue kind task.id task.vip } =
          viewOf other v := by
  have htracked (k : TaskKind) : v.runtime.registry.isTracked (k, task.id) = false :=
    congrFun (congrArg View.tracked h) k
  have hentries (k : TaskKind) : entriesOf (k, task.id) v.runtime = [] :=
    congrFun (congrArg View.entries h) k
  obtain ⟨hnew, hentry⟩ := enqueue_new task.vip (htracked kind) (hentries kind)
  have hrows := congrArg View.rows h
  have haudio := congrArg View.audio h
  constructor
  · ext1
    · exact hrows
    · exact haudio
    · funext k
      by_cases hk : k = kind
      · subst hk
        simp only [viewOf, View.queued, hnew, decide_true]
      · obtain ⟨hsame, -⟩ := enqueue_other v.runtime task.vip
          (show (k, task.id) ≠ (kind, task.id) from fun heq => hk (congrArg Prod.fst heq))
        simp only [viewOf, View.queued, hsame, htracked, hk, decide_false]
    · funext k
      by_cases hk : k = kind
      · subst hk
        simp only [viewOf, View.queued, hentry, if_true]
      · obtain ⟨-, hsame⟩ := enqueue_other v.runtime task.vip
          (show (k, task.id) ≠ (kind, task.id) from fun heq => hk (congrArg Prod.fst heq))
        simp only [viewOf, View.queued, hsame, hentries, if_neg hk]
  · intro other hne
    have hsame (k : TaskKind) := enqueue_other v.runtime task.vip
      (show (k, other) ≠ (kind, task.id) from fun heq => hne (congrArg Prod.snd heq))
    ext1
    · rfl
    · rfl
    · exact funext fun k => (hsame k).1
    · exact funext fun k => (hsame k).2

/-- One request: the answer accounts for its own task, and no other task is touched. -/
theorem serve_view {services : AppServices Id Audio}
    (hempty : viewOf services.taskSubmissionService.newTaskId w = .empty)
    (request : SubmissionRequest Id Audio) :
    Accounted services.taskSubmissionService request.kind
        (viewOf services.taskSubmissionService.newTaskId (services.serve request w).2)
        (services.serve request w).1 ∧
      ∀ other, other ≠ services.taskSubmissionService.newTaskId →
        viewOf other (services.serve request w).2 = viewOf other w := by
  obtain ⟨-, hresult⟩ := run_meets (fresh_of_view hempty) request
  unfold AppServices.serve
  split
  · dsimp only
    cases hrun : (services.taskSubmissionService.run request w).result with
    | ok response =>
      rw [hrun] at hresult
      obtain ⟨task, content, v, hdescribes, hid, hpending, -, hat, hfinal⟩ := hresult
      have hrow := own_row hid
      have hplaced := view_self hat hrow hempty
      have hothers : ∀ other, other ≠ services.taskSubmissionService.newTaskId → _ :=
        fun other hne => view_other hat hrow hne
      dsimp only
      rw [← hid] at hplaced hfinal hothers ⊢
      obtain ⟨hqueued, hkept⟩ := view_enqueue hplaced
      rw [hfinal]
      refine ⟨⟨hdescribes.taskId.trans hid, task, content, _, hdescribes, hpending, hqueued⟩, ?_⟩
      exact fun other hne => (hkept other hne).trans (hothers other hne)
    | error error =>
      rw [hrun] at hresult
      obtain ⟨statusCode, message, hanswer, hcode, hunavailable⟩ := errorAnswer_spec request error
      dsimp only
      rw [hanswer]
      rcases hresult with hnothing | ⟨hqueue, hrejected⟩
      · exact ⟨⟨hcode, .inl (view_nothing hnothing hempty)⟩,
          fun other hne => view_other hnothing (fun _ h => by cases h) hne⟩
      · have hbusy := hunavailable hqueue
        rcases hrejected with hnothing | ⟨task, hid, hfailed, hat⟩ |
          ⟨hraises, task, content, hid, hpending, hat⟩
        · exact ⟨⟨hcode, .inl (view_nothing hnothing hempty)⟩,
            fun other hne => view_other hnothing (fun _ h => by cases h) hne⟩
        · have hrow := own_row hid
          refine ⟨⟨hcode, .inr ⟨hbusy, .inl ⟨task, hfailed, view_self hat hrow hempty⟩⟩⟩, ?_⟩
          exact fun other hne => view_other hat hrow hne
        · have hrow := own_row hid
          refine ⟨⟨hcode, .inr ⟨hbusy, .inr ⟨hraises, task, content, hpending,
            view_self hat hrow hempty⟩⟩⟩, ?_⟩
          exact fun other hne => view_other hat hrow hne
  · dsimp only
    rw [hempty]
    exact ⟨⟨by decide, .inl rfl⟩, fun _ _ => rfl⟩

end Accounts

section Runs

variable [DecidableEq Id] {w : SubmissionWorld Id Audio}

/-- The id of the task that a request may create. -/
def newId (exchange : AppServices Id Audio × SubmissionRequest Id Audio) : Id :=
  exchange.1.taskSubmissionService.newTaskId

/-- Requests for other tasks do not change a view. -/
theorem serveAll_other {exchanges : List (AppServices Id Audio × SubmissionRequest Id Audio)}
    (hempty : ∀ exchange ∈ exchanges, viewOf (newId exchange) w = .empty)
    (hids : (exchanges.map newId).Nodup) {other : Id} (hother : other ∉ exchanges.map newId) :
    viewOf other (serveAll exchanges w).2 = viewOf other w := by
  induction exchanges generalizing w with
  | nil => rfl
  | cons exchange rest ih =>
    obtain ⟨services, request⟩ := exchange
    obtain ⟨hfirst, hrest⟩ := List.forall_mem_cons.mp hempty
    obtain ⟨hnew, hids⟩ := List.nodup_cons.mp hids
    rw [List.map_cons, List.mem_cons, not_or] at hother
    obtain ⟨hne, hother⟩ := hother
    obtain ⟨-, hkept⟩ := serve_view hfirst request
    refine (ih (fun x hx => ?_) hids hother).trans (hkept other hne)
    have hdistinct : newId x ≠ newId (services, request) := fun heq =>
      hnew (List.mem_map.mpr ⟨x, hx, heq⟩)
    exact (hkept (newId x) hdistinct).trans (hrest x hx)

/-- Over any requests, one after the other, with any failures in each of them: every answer still
accounts for its task at the end, and no other task has been touched. -/
theorem serveAll_accounted
    {exchanges : List (AppServices Id Audio × SubmissionRequest Id Audio)}
    (hempty : ∀ exchange ∈ exchanges, viewOf (newId exchange) w = .empty)
    (hids : (exchanges.map newId).Nodup) :
    List.Forall₂ (fun exchange answer => Accounted exchange.1.taskSubmissionService
        exchange.2.kind (viewOf (newId exchange) (serveAll exchanges w).2) answer)
      exchanges (serveAll exchanges w).1 ∧
    ∀ other ∉ exchanges.map newId, viewOf other (serveAll exchanges w).2 = viewOf other w := by
  refine ⟨?_, fun other hother => serveAll_other hempty hids hother⟩
  induction exchanges generalizing w with
  | nil => exact .nil
  | cons exchange rest ih =>
    obtain ⟨services, request⟩ := exchange
    obtain ⟨hfirst, hrest⟩ := List.forall_mem_cons.mp hempty
    obtain ⟨hnew, hids⟩ := List.nodup_cons.mp hids
    obtain ⟨haccounted, hkept⟩ := serve_view hfirst request
    have hlater : ∀ x ∈ rest, viewOf (newId x) (services.serve request w).2 = .empty := by
      intro x hx
      have hdistinct : newId x ≠ newId (services, request) := fun heq =>
        hnew (List.mem_map.mpr ⟨x, hx, heq⟩)
      exact (hkept (newId x) hdistinct).trans (hrest x hx)
    refine .cons ?_ (ih hlater hids)
    -- the later requests leave the view of the first task alone
    have hsame := serveAll_other hlater hids hnew
    show Accounted _ _ (viewOf _ (serveAll rest (services.serve request w).2).2) _
    rw [hsame]
    exact haccounted

/-- Two uploads: the queue refuses the first one and takes the second one. -/
def twoUploads : List (AppServices ℕ ℕ × SubmissionRequest ℕ ℕ) :=
  [(⟨fun _ => true, archiveService⟩, .submitOffline ⟨some "a.wav", 7⟩ none none none false),
    (⟨fun _ => true, { archiveService with newTaskId := 3, faults := {} }⟩,
      .submitSpeaker ⟨some "b.wav", 8⟩ none true)]

theorem twoUploads_accounted :
    (serveAll twoUploads archiveWorld).1.map Answer.statusCode = [503, 200] ∧
    List.Forall₂ (fun exchange answer => Accounted exchange.1.taskSubmissionService
        exchange.2.kind (viewOf (newId exchange) (serveAll twoUploads archiveWorld).2) answer)
      twoUploads (serveAll twoUploads archiveWorld).1 := by
  refine ⟨by decide +kernel, (serveAll_accounted (fun exchange hexchange => ?_) (by decide)).1⟩
  have hrows : ∀ kind, (archiveWorld.tables kind).rows.filter
      (fun task => task.id = newId exchange) = [] := by
    intro kind
    rcases List.mem_cons.mp hexchange with rfl | hlast
    · cases kind <;> rfl
    · obtain rfl := List.mem_singleton.mp hlast
      cases kind <;> rfl
  ext1
  · exact funext hrows
  · rfl
  · rfl
  · rfl

end Runs

end FunasrApi.Api

import FunasrApi.Tasks.Submission

/-!
# What a submission leaves behind

Whatever fails: a submission that returns has created one pending task with its
audio and its queue entry, and one that raises has left nothing, or a failed task
without audio, or, when the failure could not be recorded, the pending task with
its audio. At no moment is there a pending task of its own without audio.
-/

namespace FunasrApi.Tasks

open FunasrApi.Core FunasrApi.Queue

variable {Id Audio : Type} [DecidableEq Id]

/-- `new_task_id` returns an id that nothing uses yet. -/
structure Fresh (service : TaskSubmissionService Id Audio) (w : SubmissionWorld Id Audio) :
    Prop where
  rows : ∀ kind, ∀ task ∈ (w.tables kind).rows, task.id ≠ service.newTaskId
  temp : w.temp service.newTaskId = none
  tracked : ∀ kind, w.runtime.registry.isTracked (kind, service.newTaskId) = false

/-- A world of the submission: the table of its kind has at most one more row, the new
task's temp directory holds `audio`, and nothing else has changed. -/
structure At (id : Id) (kind : TaskKind) (w : SubmissionWorld Id Audio)
    (row : Option (TaskRecord Id)) (audio : Option Audio) (v : SubmissionWorld Id Audio) :
    Prop where
  rows : (v.tables kind).rows = (w.tables kind).rows ++ row.toList
  other : ∀ k, k ≠ kind → v.tables k = w.tables k
  audio : v.temp id = audio
  temp : ∀ i, i ≠ id → v.temp i = w.temp i
  runtime : v.runtime = w.runtime

/-- What holds at every moment: no old row is touched, no temp directory of another task is
touched, and a new row is the new task's, with its audio when it is pending. -/
structure Moment (id : Id) (w v : SubmissionWorld Id Audio) : Prop where
  rows : ∀ kind, (w.tables kind).rows <+: (v.tables kind).rows
  temp : ∀ i, i ≠ id → v.temp i = w.temp i
  supported : ∀ kind, ∀ task ∈ (v.tables kind).rows, task ∉ (w.tables kind).rows →
    task.id = id ∧ (task.status = .pending → (v.temp id).isSome = true)

section Worlds

variable {id : Id} {kind : TaskKind} {w v : SubmissionWorld Id Audio}
  {row : Option (TaskRecord Id)} {audio : Option Audio}

omit [DecidableEq Id] in
/-- The world before the submission. -/
theorem At.start (h : w.temp id = none) : At id kind w none none w :=
  ⟨by simp, fun _ _ => rfl, h, fun _ _ => rfl, rfl⟩

omit [DecidableEq Id] in
/-- A world of the submission in which the new row, if pending, has its audio. -/
theorem At.moment (h : At id kind w row audio v)
    (hrow : ∀ task ∈ row, task.id = id ∧ (task.status = .pending → audio.isSome = true)) :
    Moment id w v := by
  constructor
  · intro k
    by_cases hk : k = kind
    · subst hk
      rw [h.rows]
      exact List.prefix_append ..
    · rw [h.other k hk]
  · exact h.temp
  · intro k task hv hw
    by_cases hk : k = kind
    · subst hk
      rw [h.rows] at hv
      rcases List.mem_append.mp hv with hv | hv
      · exact absurd hv hw
      · rw [h.audio]
        exact hrow task (Option.mem_toList.mp hv)
    · rw [h.other k hk] at hv
      exact absurd hv hw

/-- Another content of the new task's temp directory. -/
theorem At.store (h : At id kind w row audio v) (audio' : Option Audio) :
    At id kind w row audio' { v with temp := Function.update v.temp id audio' } where
  rows := h.rows
  other := h.other
  audio := Function.update_self ..
  temp i hi := by
    show Function.update v.temp id audio' i = w.temp i
    rw [Function.update_of_ne hi]
    exact h.temp i hi
  runtime := h.runtime

omit [DecidableEq Id] in
/-- Another new row. -/
theorem At.table (h : At id kind w row audio v) {row' : Option (TaskRecord Id)}
    {table : TaskTable Id} (ht : table.rows = (w.tables kind).rows ++ row'.toList) :
    At id kind w row' audio { v with tables := Function.update v.tables kind table } where
  rows := by
    show (Function.update v.tables kind table kind).rows = _
    rw [Function.update_self]
    exact ht
  other k hk := by
    show Function.update v.tables kind table k = _
    rw [Function.update_of_ne hk]
    exact h.other k hk
  audio := h.audio
  temp := h.temp
  runtime := h.runtime

end Worlds

/-- A submission has been accepted: one new task, pending, with its audio in its temp
directory and an entry in the queue. -/
structure Accepted (id : Id) (kind : TaskKind) (w : SubmissionWorld Id Audio)
    (isAudio : Audio → Prop) (u : SubmissionWorld Id Audio) : Prop where
  row : ∃ task, task.id = id ∧ task.status = .pending ∧
    (u.tables kind).rows = (w.tables kind).rows ++ [task]
  other : ∀ k, k ≠ kind → u.tables k = w.tables k
  audio : ∃ audio, u.temp id = some audio ∧ isAudio audio
  queued : (kind, id) ∈ u.runtime.registry.queued ∧
    ∃ entry ∈ u.runtime.queue.items, entry.task = some (kind, id)

/-- A submission has been rejected: nothing is left of the new task, or it is a failed task
without a temp directory, or its failure could not be recorded and it is pending with its
audio in place. -/
def Rejected (service : TaskSubmissionService Id Audio) (kind : TaskKind)
    (w u : SubmissionWorld Id Audio) : Prop :=
  At service.newTaskId kind w none none u ∨
    (∃ task, task.id = service.newTaskId ∧ task.status = .failed ∧
      At service.newTaskId kind w (some task) none u) ∨
    service.faults.recordErrorRaises = true ∧
      ∃ task audio, task.id = service.newTaskId ∧ task.status = .pending ∧
        At service.newTaskId kind w (some task) (some audio) u

/-- The response says what the row says. -/
structure Describes (response : SubmissionResponse Id) (task : TaskRecord Id) : Prop where
  taskId : response.taskId = task.id
  filename : response.filename = task.filename
  fileSize : some response.fileSize = task.fileSize
  email : response.email = task.email
  vip : response.vip = task.vip
  sourceTaskId : response.sourceTaskId = task.sourceTaskId
  hotwords : response.hotwords = task.hotwords
  hotwordId : response.hotwordId = task.hotwordId

/-- What a submission that returns has done: the new row and its audio, and then its entry. -/
def Submitted (service : TaskSubmissionService Id Audio) (kind : TaskKind)
    (w : SubmissionWorld Id Audio) (isAudio : Audio → Prop) (response : SubmissionResponse Id)
    (u : SubmissionWorld Id Audio) : Prop :=
  ∃ task content v, Describes response task ∧ task.id = service.newTaskId ∧
    task.status = .pending ∧ isAudio content ∧
    At service.newTaskId kind w (some task) (some content) v ∧
    u = { v with runtime := v.runtime.enqueue kind service.newTaskId task.vip }

/-- What a submission that raises has left: nothing, unless it is the queue that has refused. -/
def Left (service : TaskSubmissionService Id Audio) (kind : TaskKind)
    (w : SubmissionWorld Id Audio) (error : SubmissionError) (u : SubmissionWorld Id Audio) :
    Prop :=
  At service.newTaskId kind w none none u ∨
    (∃ message, error = .unavailable message) ∧ Rejected service kind w u

section Ends

variable {service : TaskSubmissionService Id Audio} {kind : TaskKind}
  {w u : SubmissionWorld Id Audio} {isAudio : Audio → Prop}

/-- A submission that returns has been accepted. -/
theorem Submitted.accepted (hfresh : Fresh service w) {response : SubmissionResponse Id}
    (h : Submitted service kind w isAudio response u) :
    response.taskId = service.newTaskId ∧ Accepted service.newTaskId kind w isAudio u := by
  obtain ⟨task, content, v, hdescribes, hid, hpending, haudio, hat, rfl⟩ := h
  have huntracked := hfresh.tracked kind
  rw [← hat.runtime] at huntracked
  exact ⟨hdescribes.taskId.trans hid,
    { row := ⟨task, hid, hpending, hat.rows⟩
      other := hat.other
      audio := ⟨content, hat.audio, haudio⟩
      queued := QueueWorkerRuntime.enqueue_accepted huntracked task.vip }⟩

theorem Submitted.mono {isAudio' : Audio → Prop} (haudio : ∀ audio, isAudio audio → isAudio' audio)
    {response : SubmissionResponse Id} (h : Submitted service kind w isAudio response u) :
    Submitted service kind w isAudio' response u := by
  obtain ⟨task, content, v, hdescribes, hid, hpending, hcontent, hat, hu⟩ := h
  exact ⟨task, content, v, hdescribes, hid, hpending, haudio content hcontent, hat, hu⟩

omit [DecidableEq Id] in
/-- One that raises has been rejected. -/
theorem Left.rejected {error : SubmissionError} (h : Left service kind w error u) :
    Rejected service kind w u :=
  h.elim .inl And.right

end Ends

section Calls

variable {service : TaskSubmissionService Id Audio} {kind : TaskKind}
  {w v : SubmissionWorld Id Audio} {audio : Option Audio} {α : Type}
  {Q : α → SubmissionWorld Id Audio → Prop}
  {E : SubmissionError → SubmissionWorld Id Audio → Prop}

omit [DecidableEq Id] in
/-- A condition that raises has no effect on what comes after it. -/
theorem raiseIf_meets {I : SubmissionWorld Id Audio → Prop} {condition : Bool}
    {error : SubmissionError} {rest : Unit → Submission Id Audio α}
    (hrest : condition = false → Effect.Meets I (rest ()) v Q E)
    (hE : condition = true → E error v) :
    Effect.Meets I (raiseIf condition error >>= rest) v Q E := by
  apply Effect.meets_bind
  unfold raiseIf
  cases condition with
  | true => exact Effect.meets_throw (hE rfl)
  | false => exact Effect.meets_pure (hrest rfl)

/-- The temp directory of a task that is not pending is removed. -/
theorem cleanup_meets {id : Id} {row : Option (TaskRecord Id)} (h : At id kind w row audio v)
    (hrow : ∀ task ∈ row, task.id = id ∧ task.status ≠ .pending) :
    Effect.Meets (Moment id w) (TaskSubmissionService.cleanup id) v
      (fun _ u => At id kind w row none u) E := by
  have hafter := h.store none
  refine Effect.meets_modify (hafter.moment fun task ht => ?_) hafter
  obtain ⟨hid, hp⟩ := hrow task ht
  exact ⟨hid, fun he => absurd he hp⟩

/-- Audio is put into the temp directory of the new task. -/
theorem store_meets {id : Id} (h : At id kind w none audio v) (content : Audio) :
    Effect.Meets (Moment id w) (TaskSubmissionService.store id content) v
      (fun _ u => At id kind w none (some content) u) E := by
  have hafter := h.store (some content)
  exact Effect.meets_modify (hafter.moment fun task ht => by cases ht) hafter

/-- `create_task` inserts the pending row of a task whose audio is in place, if it has a name. -/
theorem createTask_meets {content : Audio}
    (h : At service.newTaskId kind w none (some content) v) (filename : Option String)
    (task : String → TaskRecord Id)
    (htask : ∀ name, (task name).id = service.newTaskId ∧ (task name).status = .pending) :
    Effect.Meets (Moment service.newTaskId w) (service.createTask kind filename task) v
      (fun _ u => ∃ name, filename = some name ∧
        At service.newTaskId kind w (some (task name)) (some content) u)
      (fun _ u => At service.newTaskId kind w none (some content) u) := by
  unfold TaskSubmissionService.createTask
  split
  · exact Effect.meets_throw h
  · exact Effect.meets_throw h
  · rename_i name _
    apply Effect.meets_bind
    apply Effect.meets_get
    split
    · exact Effect.meets_throw h
    · rename_i table hcreate
      have hrows := TaskTable.createTask_rows hcreate
      rw [h.rows, Option.toList_none, List.append_nil] at hrows
      have hafter : At service.newTaskId kind w (some (task name)) (some content) _ :=
        h.table hrows
      refine Effect.meets_modify (hafter.moment fun new hnew => ?_) ⟨name, rfl, hafter⟩
      obtain rfl := Option.some.inj hnew
      exact ⟨(htask name).1, fun _ => rfl⟩

/-- `record_error` finds the new task and marks it failed. -/
theorem recordError_meets {task : TaskRecord Id}
    (hrows : ∀ old ∈ (w.tables kind).rows, old.id ≠ service.newTaskId)
    (hid : task.id = service.newTaskId)
    (h : At service.newTaskId kind w (some task) audio v) :
    Effect.Meets (Moment service.newTaskId w) (service.recordError kind service.newTaskId) v
      (fun found u => found = true ∧ ∃ failed, failed.id = service.newTaskId ∧
        failed.status = .failed ∧ At service.newTaskId kind w (some failed) audio u)
      (fun _ u => service.faults.recordErrorRaises = true ∧
        At service.newTaskId kind w (some task) audio u) := by
  unfold TaskSubmissionService.recordError
  split
  · rename_i hraises
    exact Effect.meets_throw ⟨hraises, h⟩
  · apply Effect.meets_bind
    apply Effect.meets_get
    have hfresh : ∀ old ∈ (w.tables kind).rows, old.id ≠ task.id := by
      intro old ho
      rw [hid]
      exact hrows old ho
    have hfound := TaskTable.getTask_last h.rows hfresh
    have hfailed := TaskTable.updateError_last h.rows hfresh compensationMessage service.now
    rw [hid] at hfound hfailed
    rw [hfound]
    apply Effect.meets_bind
    have hafter : At service.newTaskId kind w
        (some (task.withError compensationMessage service.now)) audio _ := h.table hfailed
    refine Effect.meets_modify (hafter.moment fun new hnew => ?_) ?_
    · obtain rfl := Option.some.inj hnew
      exact ⟨hid, fun hp => by cases hp⟩
    · exact Effect.meets_pure
        ⟨rfl, task.withError compensationMessage service.now, hid, rfl, hafter⟩

/-- `_compensate_failed_submission` before the row exists: the temp directory is removed. -/
theorem compensate_meets (h : At service.newTaskId kind w none audio v) :
    Effect.Meets (Moment service.newTaskId w)
      (service.compensateFailedSubmission kind service.newTaskId false) v
      (fun _ u => At service.newTaskId kind w none none u) E := by
  apply Effect.meets_bind
  apply Effect.meets_pure
  exact cleanup_meets h fun task ht => by cases ht

/-- `_compensate_failed_submission` once the row exists: the task is marked failed and its temp
directory removed, or it stays as it is. -/
theorem compensate_created_meets {task : TaskRecord Id} {content : Audio}
    (hrows : ∀ old ∈ (w.tables kind).rows, old.id ≠ service.newTaskId)
    (hid : task.id = service.newTaskId) (hp : task.status = .pending)
    (h : At service.newTaskId kind w (some task) (some content) v) :
    Effect.Meets (Moment service.newTaskId w)
      (service.compensateFailedSubmission kind service.newTaskId true) v
      (fun _ u => Rejected service kind w u) E := by
  apply Effect.meets_bind
  apply Effect.meets_tryCatch
  refine (recordError_meets hrows hid h).mono ?_ ?_
  · rintro _ u ⟨rfl, failed, hfid, hfailed, hu⟩
    refine (cleanup_meets hu fun new hnew => ?_).mono (fun _ _ hend => ?_) fun _ _ he => he
    · obtain rfl := Option.some.inj hnew
      exact ⟨hfid, by rw [hfailed]; decide⟩
    · exact .inr (.inl ⟨failed, hfid, hfailed, hend⟩)
  · rintro _ u ⟨hraises, hu⟩
    apply Effect.meets_pure
    apply Effect.meets_pure
    exact .inr (.inr ⟨hraises, task, content, hid, hp, hu⟩)

/-- An exception before the row exists leaves nothing. -/
theorem compensating_meets {x : Submission Id Audio α}
    (hx : Effect.Meets (Moment service.newTaskId w) x v Q
      (fun _ u => ∃ audio, At service.newTaskId kind w none audio u)) :
    Effect.Meets (Moment service.newTaskId w)
      (service.compensating kind service.newTaskId false x) v Q
      (fun _ u => At service.newTaskId kind w none none u) := by
  apply Effect.meets_tryCatch
  refine hx.mono (fun _ _ hq => hq) ?_
  rintro error u ⟨audio, hu⟩
  apply Effect.meets_bind
  exact (compensate_meets hu).mono (fun _ _ hend => Effect.meets_throw hend) fun _ _ he => he

/-- `enqueue` is the last call, and the only one whose exception may leave a row. -/
theorem enqueue_meets {task : TaskRecord Id} {content : Audio} (hfresh : Fresh service w)
    (hid : task.id = service.newTaskId) (hp : task.status = .pending)
    (h : At service.newTaskId kind w (some task) (some content) v) :
    Effect.Meets (Moment service.newTaskId w)
      (service.compensating kind service.newTaskId true
        (service.enqueue kind service.newTaskId task.vip)) v
      (fun _ u => u = { v with runtime := v.runtime.enqueue kind service.newTaskId task.vip })
      (Left service kind w) := by
  apply Effect.meets_tryCatch
  unfold TaskSubmissionService.enqueue
  split
  · apply Effect.meets_throw
    apply Effect.meets_bind
    refine (compensate_created_meets (hfresh.rows kind) hid hp h).mono ?_ fun _ _ he => he
    exact fun _ u hu => Effect.meets_throw (.inr ⟨⟨_, rfl⟩, hu⟩)
  · have hmoment : Moment service.newTaskId w v := h.moment fun new hnew => by
      obtain rfl := Option.some.inj hnew
      exact ⟨hid, fun _ => rfl⟩
    exact Effect.meets_modify ⟨hmoment.rows, hmoment.temp, hmoment.supported⟩ rfl

/-- `save_upload` puts the upload into the temp directory, or does nothing. -/
theorem saveUpload_meets (h : At service.newTaskId kind w none audio v) (upload : Upload Audio) :
    Effect.Meets (Moment service.newTaskId w) (service.saveUpload upload service.newTaskId) v
      (fun _ u => At service.newTaskId kind w none (some upload.content) u)
      (fun _ u => At service.newTaskId kind w none audio u) := by
  unfold TaskSubmissionService.saveUpload
  split
  · exact Effect.meets_throw h
  · exact Effect.meets_throw h
  · apply raiseIf_meets
    · intro _
      apply Effect.meets_bind
      exact (store_meets h upload.content).mono (fun _ _ hu => Effect.meets_pure hu)
        fun _ _ he => he
    · exact fun _ => h

/-- `_submit_upload_task`. -/
theorem submitUploadTask_meets (hfresh : Fresh service w) (upload : Upload Audio)
    (email : Option String) (vip : Bool) (hotwords : Option String) (hotwordId : Option Int)
    (message : String) :
    Effect.Meets (Moment service.newTaskId w)
      (service.submitUploadTask kind upload email vip hotwords hotwordId message) w
      (Submitted service kind w (upload.content = ·)) (Left service kind w) := by
  have hstart : At service.newTaskId kind w none none w := .start hfresh.temp
  obtain ⟨filename, content⟩ := upload
  apply Effect.meets_bind
  have hcreated : Effect.Meets (Moment service.newTaskId w)
      (service.compensating kind service.newTaskId false do
        let fileSize ← service.saveUpload ⟨filename, content⟩ service.newTaskId
        service.createTask kind filename fun filename =>
          { id := service.newTaskId, filename := filename, fileSize := some fileSize,
            email := email, hotwords := hotwords, hotwordId := hotwordId, vip := vip,
            createdAt := service.now }
        pure fileSize) w
      (fun fileSize u => ∃ name, filename = some name ∧ At service.newTaskId kind w
        (some
          { id := service.newTaskId, filename := name, fileSize := some fileSize,
            email := email, hotwords := hotwords, hotwordId := hotwordId, vip := vip,
            createdAt := service.now })
        (some content) u)
      (fun _ u => At service.newTaskId kind w none none u) := by
    apply compensating_meets
    apply Effect.meets_bind
    refine (saveUpload_meets hstart ⟨filename, content⟩).mono (fun fileSize u hu => ?_)
      fun _ u hu => ⟨none, hu⟩
    apply Effect.meets_bind
    refine (createTask_meets hu filename _ fun name => ⟨rfl, rfl⟩).mono ?_
      fun _ u hu => ⟨_, hu⟩
    exact fun _ u' hu' => Effect.meets_pure hu'
  refine hcreated.mono ?_ fun _ _ hu => .inl hu
  rintro fileSize u ⟨name, rfl, hu⟩
  apply Effect.meets_bind
  refine (enqueue_meets hfresh rfl rfl hu).mono (fun _ u' hu' => ?_) fun _ _ he => he
  refine Effect.meets_pure ⟨_, content, u, ?_, ?_, ?_, rfl, hu, hu'⟩
  · exact ⟨rfl, rfl, rfl, rfl, rfl, rfl, rfl, rfl⟩
  · rfl
  · rfl

/-- The audio has the hash that the source task recorded, if it recorded one. -/
def HashMatches (service : TaskSubmissionService Id Audio) (source : TaskRecord Id)
    (audio : Audio) : Prop :=
  ∀ hash, source.fileHash = some hash → hash ≠ "" →
    lower hash = lower (service.calculateFileHash audio)

omit [DecidableEq Id] in
/-- The check of the hash has no effect. -/
theorem verifyHash_meets {I : SubmissionWorld Id Audio → Prop} {source : TaskRecord Id}
    {content : Audio} {Q : Unit → SubmissionWorld Id Audio → Prop}
    (hQ : HashMatches service source content → Q () v) (hE : ∀ error, E error v) :
    Effect.Meets I
      (TaskSubmissionService.verifyHash source (service.calculateFileHash content)) v Q E := by
  simp only [TaskSubmissionService.verifyHash]
  split
  · rename_i hblank
    refine Effect.meets_pure (hQ fun hash hhash hne => absurd ?_ hne)
    rw [hhash] at hblank
    exact hblank
  · split
    · exact Effect.meets_throw (hE _)
    · exact Effect.meets_throw (hE _)
    · rename_i hequal
      refine Effect.meets_pure (hQ fun hash hhash _ => ?_)
      rw [hhash] at hequal
      unfold compareDigest at hequal
      split at hequal
      · simpa using hequal
      · cases hequal

/-- The restored audio is in the temp directory and has the recorded hash. -/
theorem restoreAudio_meets {restore : String → Option Audio} {source : TaskRecord Id}
    (h : At service.newTaskId kind w none none v) (archiveKey : String) :
    Effect.Meets (Moment service.newTaskId w)
      (service.restoreAudio restore source archiveKey service.newTaskId) v
      (fun _ u => ∃ content, HashMatches service source content ∧
        At service.newTaskId kind w none (some content) u)
      (fun _ u => ∃ audio, At service.newTaskId kind w none audio u) := by
  unfold TaskSubmissionService.restoreAudio
  split
  · exact Effect.meets_throw ⟨_, h⟩
  · exact Effect.meets_throw ⟨_, h⟩
  · rename_i content _ _
    apply Effect.meets_bind
    refine (store_meets h content).mono (fun _ u hu => ?_) fun _ _ he => he
    refine raiseIf_meets (fun _ => ?_) fun _ => ⟨_, hu⟩
    refine raiseIf_meets (fun _ => ?_) fun _ => ⟨_, hu⟩
    refine raiseIf_meets (fun _ => ?_) fun _ => ⟨_, hu⟩
    apply Effect.meets_bind
    refine verifyHash_meets (fun hmatches => ?_) fun _ => ⟨_, hu⟩
    exact Effect.meets_pure ⟨content, hmatches, hu⟩

/-- `_restore_and_verify_audio` leaves nothing behind when it raises. -/
theorem restoreAndVerifyAudio_meets {source : TaskRecord Id}
    (h : At service.newTaskId kind w none none v) (archiveKey : String) :
    Effect.Meets (Moment service.newTaskId w)
      (service.restoreAndVerifyAudio source archiveKey service.newTaskId) v
      (fun _ u => ∃ content, HashMatches service source content ∧
        At service.newTaskId kind w none (some content) u)
      (fun _ u => At service.newTaskId kind w none none u) := by
  unfold TaskSubmissionService.restoreAndVerifyAudio
  split
  · exact Effect.meets_throw h
  · apply Effect.meets_tryCatch
    refine (restoreAudio_meets h archiveKey).mono (fun _ _ hq => hq) ?_
    rintro error u ⟨audio, hu⟩
    apply Effect.meets_bind
    refine (cleanup_meets hu fun task ht => by cases ht).mono (fun _ _ hend => ?_)
      fun _ _ he => he
    cases error with
    | uploadTooLarge message | archiveRestore message => exact Effect.meets_throw hend
    | _ => exact Effect.meets_throw hend

/-- `_submit_restored_task`. -/
theorem submitRestoredTask_meets (hfresh : Fresh service w) (source : TaskRecord Id)
    (archiveKey : String) (email : Option String) (vip : Bool) (hotwords : Option String)
    (hotwordId : Option Int) (message : String) :
    Effect.Meets (Moment service.newTaskId w)
      (service.submitRestoredTask kind source archiveKey email vip hotwords hotwordId message) w
      (Submitted service kind w (HashMatches service source)) (Left service kind w) := by
  have hstart : At service.newTaskId kind w none none w := .start hfresh.temp
  apply Effect.meets_bind
  refine (restoreAndVerifyAudio_meets hstart archiveKey).mono ?_ fun _ _ hu => .inl hu
  rintro ⟨fileSize, fileHash⟩ u ⟨content, hmatches, hu⟩
  apply Effect.meets_bind
  have hcreated := createTask_meets hu (some source.filename) (fun filename =>
    { id := service.newTaskId, filename := filename, sourceTaskId := some source.id,
      fileSize := some fileSize, email := email, hotwords := hotwords, hotwordId := hotwordId,
      vip := vip, s3Key := some archiveKey, fileHash := some fileHash,
      createdAt := service.now }) fun name => ⟨rfl, rfl⟩
  refine (compensating_meets (hcreated.mono (fun _ _ hq => hq) fun _ _ he => ⟨_, he⟩)).mono ?_
    fun _ _ hu => .inl hu
  rintro _ u' ⟨name, hname, hu'⟩
  obtain rfl := Option.some.inj hname
  apply Effect.meets_bind
  refine (enqueue_meets hfresh rfl rfl hu').mono (fun _ u'' hu'' => ?_) fun _ _ he => he
  refine Effect.meets_pure ⟨_, content, u', ?_, ?_, ?_, hmatches, hu', hu''⟩
  · exact ⟨rfl, rfl, rfl, rfl, rfl, rfl, rfl, rfl⟩
  · rfl
  · rfl

end Calls

/-- The audio that a request's task has to be given. -/
def IsAudioOf (service : TaskSubmissionService Id Audio) (w : SubmissionWorld Id Audio) :
    SubmissionRequest Id Audio → Audio → Prop
  | .submitOffline upload .. | .submitSpeaker upload .. => (upload.content = ·)
  | .rerecognizeOffline sourceTaskId .. => fun audio =>
    ∃ source ∈ (w.tables .offline).rows, source.id = sourceTaskId ∧
      HashMatches service source audio
  | .rerecognizeSpeaker sourceTaskId .. => fun audio =>
    ∃ source ∈ (w.tables .spk).rows, source.id = sourceTaskId ∧
      HashMatches service source audio

section Requests

variable {service : TaskSubmissionService Id Audio} {w : SubmissionWorld Id Audio}

/-- A request that is refused before any effect leaves nothing behind. -/
theorem Left.start (hfresh : Fresh service w) (kind : TaskKind) (error : SubmissionError) :
    Left service kind w error w :=
  .inl (.start hfresh.temp)

/-- The checks of a rerecognition have no effect, and what passes them is a row. -/
theorem source_meets {kind : TaskKind} {α : Type} (hfresh : Fresh service w)
    (sourceTaskId : Id) {next : TaskRecord Id × String → Submission Id Audio α}
    {Q : α → SubmissionWorld Id Audio → Prop}
    (hnext : ∀ source archiveKey, source ∈ (w.tables kind).rows → source.id = sourceTaskId →
      Effect.Meets (Moment service.newTaskId w) (next (source, archiveKey)) w Q
        (Left service kind w)) :
    Effect.Meets (Moment service.newTaskId w) (do
        service.requireScheduler kind
        let found ← service.getTask kind sourceTaskId
        let passed ← TaskSubmissionService.validateRerecognitionSource found
        next passed) w Q
      (Left service kind w) := by
  have hnothing := Left.start hfresh kind
  refine raiseIf_meets (fun _ => ?_) fun _ => hnothing _
  apply Effect.meets_bind
  unfold TaskSubmissionService.getTask
  split
  · exact Effect.meets_throw (hnothing _)
  · apply Effect.meets_bind
    apply Effect.meets_get
    apply Effect.meets_pure
    apply Effect.meets_bind
    unfold TaskSubmissionService.validateRerecognitionSource
    split
    · exact Effect.meets_throw (hnothing _)
    · rename_i task hfound
      obtain ⟨hmem, hid⟩ := TaskTable.getTask_mem hfound
      split
      · exact Effect.meets_throw (hnothing _)
      · split
        · exact Effect.meets_throw (hnothing _)
        · split
          · exact Effect.meets_throw (hnothing _)
          · exact Effect.meets_throw (hnothing _)
          · exact Effect.meets_pure (hnext task _ hmem hid)

/-- Every request: it has submitted its task, or left nothing, or the queue has refused it. -/
theorem run_meets (hfresh : Fresh service w) (request : SubmissionRequest Id Audio) :
    Effect.Meets (Moment service.newTaskId w) (service.run request) w
      (Submitted service request.kind w (IsAudioOf service w request))
      (Left service request.kind w) := by
  have hnothing := Left.start hfresh
  cases request with
  | submitOffline upload email hotwords hotwordId vip =>
    refine raiseIf_meets (fun _ => ?_) fun _ => hnothing _ _
    split
    · exact Effect.meets_throw (hnothing _ _)
    · exact submitUploadTask_meets hfresh ..
  | submitSpeaker upload email vip =>
    refine raiseIf_meets (fun _ => ?_) fun _ => hnothing _ _
    exact submitUploadTask_meets hfresh ..
  | rerecognizeSpeaker sourceTaskId email vip =>
    refine source_meets hfresh sourceTaskId fun source archiveKey hmem hid => ?_
    refine (submitRestoredTask_meets hfresh ..).mono ?_ fun _ _ he => he
    exact fun response u h => h.mono fun audio hmatches => ⟨source, hmem, hid, hmatches⟩
  | rerecognizeOffline sourceTaskId email vip hotwords hotwordId =>
    refine source_meets hfresh sourceTaskId fun source archiveKey hmem hid => ?_
    have hsubmit : ∀ hotwords hotwordId', Effect.Meets (Moment service.newTaskId w)
        (service.submitRestoredTask .offline source archiveKey (email <|> source.email)
          (vip.getD source.vip) hotwords hotwordId' "OFFLINE 重识别任务已加入队列，正在处理") w
        (Submitted service .offline w fun audio => ∃ source ∈ (w.tables .offline).rows,
          source.id = sourceTaskId ∧ HashMatches service source audio)
        (Left service .offline w) := by
      intro hotwords hotwordId'
      refine (submitRestoredTask_meets hfresh ..).mono ?_ fun _ _ he => he
      exact fun response u h => h.mono fun audio hmatches => ⟨source, hmem, hid, hmatches⟩
    cases hotwords with
    | none =>
      cases hotwordId with
      | none => exact hsubmit ..
      | some hotwordId => exact hsubmit ..
    | some hotwords =>
      cases hotwordId with
      | none =>
        dsimp only
        split
        · exact Effect.meets_throw (hnothing _ _)
        · exact hsubmit ..
      | some hotwordId => exact Effect.meets_throw (hnothing _ _)

end Requests

/-- No pending task is without its audio. -/
def AudioInPlace (w : SubmissionWorld Id Audio) : Prop :=
  ∀ kind, ∀ task ∈ (w.tables kind).rows, task.status = .pending → (w.temp task.id).isSome = true

/-- A moment of a submission loses no task's audio. -/
theorem Moment.audioInPlace {service : TaskSubmissionService Id Audio}
    {w v : SubmissionWorld Id Audio} (hfresh : Fresh service w)
    (h : Moment service.newTaskId w v) (hw : AudioInPlace w) : AudioInPlace v := by
  intro kind task htask hp
  by_cases hold : task ∈ (w.tables kind).rows
  · rw [h.temp _ (hfresh.rows kind task hold)]
    exact hw kind task hold hp
  · obtain ⟨hid, haudio⟩ := h.supported kind task htask hold
    rw [hid]
    exact haudio hp

/-- Every request, whatever fails: it passes only through worlds in which no other task is
touched and no pending task has lost its audio; when it returns it has been accepted, and when
it raises it has been rejected. -/
theorem submission_outcome {service : TaskSubmissionService Id Audio}
    {w : SubmissionWorld Id Audio} (hfresh : Fresh service w)
    (request : SubmissionRequest Id Audio) :
    Effect.Meets
      (fun v => Moment service.newTaskId w v ∧ (AudioInPlace w → AudioInPlace v))
      (service.run request) w
      (fun response u => response.taskId = service.newTaskId ∧
        Accepted service.newTaskId request.kind w (IsAudioOf service w request) u)
      (fun _ u => Rejected service request.kind w u) := by
  have hmeets : Effect.Meets (Moment service.newTaskId w) (service.run request) w
      (fun response u => response.taskId = service.newTaskId ∧
        Accepted service.newTaskId request.kind w (IsAudioOf service w request) u)
      (fun _ u => Rejected service request.kind w u) :=
    (run_meets hfresh request).mono (fun _ _ h => h.accepted hfresh) fun _ _ h => h.rejected
  exact hmeets.moments fun v hv => ⟨hv, hv.audioInPlace hfresh⟩

/-- A completed task whose archive is still there, in a service that cannot enqueue. -/
def archiveWorld : SubmissionWorld Nat Nat where
  tables
    | .offline =>
      { rows := [{ id := 1, filename := "demo.wav", status := .completed, s3Key := some "audio/1",
                   fileHash := some "AB12", createdAt := 0 }]
        primaryKey := List.nodup_singleton _ }
    | .spk => .empty
  temp _ := none
  runtime := .idle 0

/-- The service over that world: the archive holds the audio `7` under every key. -/
def archiveService : TaskSubmissionService Nat Nat where
  canAccept _ := true
  maxFileSizeMb := 500
  parseHotwords _ := none
  restoreOriginal := some fun _ => some 7
  size _ := 1024
  calculateFileHash _ := "ab12"
  newTaskId := 2
  now := 5
  faults := { enqueueRaises := true }

/-- The rerecognition of that task is compensated. -/
theorem archive_submission_outcome :
    Effect.Meets
      (fun v => Moment archiveService.newTaskId archiveWorld v ∧
        (AudioInPlace archiveWorld → AudioInPlace v))
      (archiveService.run (.rerecognizeOffline 1 none none none none)) archiveWorld
      (fun response u => response.taskId = archiveService.newTaskId ∧
        Accepted archiveService.newTaskId .offline archiveWorld
          (IsAudioOf archiveService archiveWorld (.rerecognizeOffline 1 none none none none)) u)
      (fun _ u => Rejected archiveService .offline archiveWorld u) := by
  refine submission_outcome ⟨fun kind task htask => ?_, rfl, fun kind => rfl⟩ _
  cases kind with
  | offline =>
    obtain rfl := List.mem_singleton.mp htask
    decide
  | spk => cases htask

end FunasrApi.Tasks

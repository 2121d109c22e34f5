import FunasrApi.Processing.OfflineTask

/-!
# What a run of an OFFLINE task leaves behind

Whatever fails: a run that returns `True` has saved its result in a completed task,
and one that returns `False` has left the task failed, with the error, if it is
still there. From the moment on in which the result has been saved the task stays
completed, and the temp audio is cleaned up after that.
-/

namespace FunasrApi.Processing

open FunasrApi.Core FunasrApi.Repositories FunasrApi.Tasks

variable {Id Segment Json Duration Hotwords : Type} [DecidableEq Id]

/-- The row is completed with a payload. -/
structure HoldsPayload (row : OfflineTask Id Json Duration)
    (payload : OfflinePersistencePayload Json Duration) : Prop where
  status : row.status = .completed
  fullText : row.fullText = some payload.fullText
  segments : row.segments = some payload.segmentPayloads
  wordTimestamps : row.wordTimestamps = some payload.wordTimestamps

namespace OfflineTaskService

variable (service : OfflineTaskService Id Segment Json Duration Hotwords)

/-- What holds at every moment of a run: when the result has been saved, the task is completed with
it, and when the temp audio has been cleaned up, the task is completed and has the key under which
its audio was archived. -/
structure Moment (v : ProcessingWorld Id Json Duration) : Prop where
  saved : ∀ payload ∈ v.saved, ∃ row, v.repository.getById service.taskId = some row ∧
    HoldsPayload row payload
  cleaned : v.cleaned = true → ∃ row key, v.repository.getById service.taskId = some row ∧
    row.status = .completed ∧ v.backupKey = some key ∧ key ≠ "" ∧ row.s3Key = some key

/-- Nothing has been saved or cleaned up. -/
structure Unsaved (v : ProcessingWorld Id Json Duration) : Prop where
  saved : v.saved = none
  cleaned : v.cleaned = false

/-- Nothing has been saved or cleaned up, and the archive key is recorded if there is one. -/
structure Archived (v : ProcessingWorld Id Json Duration) : Prop extends Unsaved v where
  recorded : ∀ key ∈ v.backupKey, ∀ row, v.repository.getById service.taskId = some row →
    row.s3Key = some key

/-- The payload is that of a recognition that succeeded. -/
def Recognized (task : TaskRecord Id Json Duration) (audioPath : String)
    (payload : OfflinePersistencePayload Json Duration) : Prop :=
  ∃ hotwords result, service.loadHotwords task = .ok hotwords ∧
    service.recognize audioPath hotwords = .ok result ∧ result.error.getD "" = "" ∧
      service.buildOfflinePersistencePayload result = .ok payload

/-- A payload has been saved, and the archive key is recorded if there is one. -/
def Saved (payload : OfflinePersistencePayload Json Duration)
    (v : ProcessingWorld Id Json Duration) : Prop :=
  v.saved = some payload ∧ ∃ row, v.repository.getById service.taskId = some row ∧
    HoldsPayload row payload ∧ ∀ key ∈ v.backupKey, row.s3Key = some key

/-- The task has failed with an error, if it is still there. -/
def FailedWith (error : String) (v : ProcessingWorld Id Json Duration) : Prop :=
  ∀ row, v.repository.getById service.taskId = some row →
    row.status = .failed ∧ row.errorMessage = some error

/-- The run has found the task, and its temp audio under a path. -/
def Reads (w : ProcessingWorld Id Json Duration) (task : TaskRecord Id Json Duration)
    (audioPath : String) : Prop :=
  w.repository.getTask service.taskId = some task ∧ service.resolve task.filename = .ok audioPath

variable {service} {w v : ProcessingWorld Id Json Duration}

theorem Unsaved.moment (h : Unsaved v) : service.Moment v := by
  constructor
  · intro payload hsaved
    rw [h.saved] at hsaved
    cases hsaved
  · intro hcleaned
    rw [h.cleaned] at hcleaned
    cases hcleaned

theorem Saved.moment {payload : OfflinePersistencePayload Json Duration}
    (h : service.Saved payload v) (hcleaned : v.cleaned = true → ∃ key ∈ v.backupKey, key ≠ "") :
    service.Moment v := by
  obtain ⟨hsaved, row, hrow, hholds, hkey⟩ := h
  constructor
  · intro payload' hsaved'
    rw [hsaved] at hsaved'
    obtain rfl := Option.some.inj hsaved'
    exact ⟨row, hrow, hholds⟩
  · intro hclean
    obtain ⟨key, hbackup, hne⟩ := hcleaned hclean
    exact ⟨row, key, hrow, hholds.status, hbackup, hne, hkey key hbackup⟩

section Access

/-- The world that an access finds. -/
def beforeAccess (service : OfflineTaskService Id Segment Json Duration Hotwords)
    (kind : RepositoryAccess) (v : ProcessingWorld Id Json Duration) :
    ProcessingWorld Id Json Duration :=
  if service.deletedBefore kind then service.deleteRow v else v

/-- A deleted row is not found. -/
theorem getById_deleteRow : (service.deleteRow v).repository.getById service.taskId = none := by
  rw [SqlTaskRepository.getById, Keyed.lookup_eq_none_iff]
  intro hmem
  obtain ⟨row, hrow, hid⟩ := List.mem_map.mp hmem
  have hne := (List.mem_filter.mp hrow).2
  exact absurd hid (of_decide_eq_true hne)

theorem beforeAccess_unsaved (service : OfflineTaskService Id Segment Json Duration Hotwords)
    (kind : RepositoryAccess) (h : Unsaved v) :
    Unsaved (service.beforeAccess kind v) := by
  unfold beforeAccess
  split
  · exact ⟨h.saved, h.cleaned⟩
  · exact h

theorem beforeAccess_archived (kind : RepositoryAccess) (h : service.Archived v) :
    service.Archived (service.beforeAccess kind v) := by
  refine ⟨beforeAccess_unsaved service kind h.toUnsaved, ?_⟩
  unfold beforeAccess
  split
  · intro key _ row hrow
    rw [getById_deleteRow] at hrow
    cases hrow
  · exact h.recorded

/-- What is found under an id after a change is the changed row. -/
theorem getById_changeRow {repository : SqlTaskRepository Id Json Duration} {taskId : Id}
    {f : OfflineTask Id Json Duration → OfflineTask Id Json Duration}
    (hf : ∀ row, (f row).id = row.id) {row : OfflineTask Id Json Duration}
    (h : (repository.changeRow taskId f).1.getById taskId = some row) :
    ∃ old, repository.getById taskId = some old ∧ row = f old := by
  have hmap : (repository.changeRow taskId f).1.getById taskId =
      (repository.getById taskId).map f := Keyed.lookup_change hf
  obtain ⟨old, hold, hrow⟩ := Option.map_eq_some_iff.mp (hmap.symm.trans h)
  exact ⟨old, hold, hrow.symm⟩

/-- A saved result is in the row, if there is one, and leaves the archive key alone. -/
theorem saveResult_found {repository : SqlTaskRepository Id Json Duration} {now : ℤ} {taskId : Id}
    {payload : OfflinePersistencePayload Json Duration} {record : TaskRecord Id Json Duration}
    (h : (repository.saveResult now taskId payload.fullText payload.segmentPayloads
      payload.processingTime (some payload.wordTimestamps)).2 = .record (some record)) :
    ∃ old row, repository.getById taskId = some old ∧
      (repository.saveResult now taskId payload.fullText payload.segmentPayloads
        payload.processingTime (some payload.wordTimestamps)).1.getById taskId = some row ∧
      HoldsPayload row payload ∧ row.s3Key = old.s3Key := by
  obtain ⟨old, hold, -⟩ := Option.map_eq_some_iff.mp (Reply.record.inj h)
  have hmap := @Keyed.lookup_change _ _ _ OfflineTask.id taskId repository.rows
    (fun task => { task with
      fullText := some payload.fullText
      segments := some payload.segmentPayloads
      wordTimestamps := some payload.wordTimestamps
      processingTime := some payload.processingTime
      status := .completed
      completedAt := some now }) fun _ => rfl
  exact ⟨old, _, hold, hmap.trans (congrArg (Option.map _) hold), ⟨rfl, rfl, rfl, rfl⟩, rfl⟩

/-- An access acts on the world that it finds, or raises there. -/
theorem access_meets {kind : RepositoryAccess}
    {call : SqlTaskRepository Id Json Duration →
      SqlTaskRepository Id Json Duration × Reply Id Json Duration}
    {I : ProcessingWorld Id Json Duration → Prop}
    {Q : Reply Id Json Duration → ProcessingWorld Id Json Duration → Prop}
    {E : String → ProcessingWorld Id Json Duration → Prop}
    (hfound : I (service.beforeAccess kind v))
    (hraised : ∀ error, service.repositoryRaises kind = some error →
      E error (service.beforeAccess kind v))
    (hdone : let u := service.beforeAccess kind v
      I { u with repository := (call u.repository).1 } ∧
        Q (call u.repository).2 { u with repository := (call u.repository).1 }) :
    Effect.Meets I (service.access kind call) v Q E := by
  unfold access
  refine Effect.meets_ite_modify hfound ?_
  split
  · next error herror => exact Effect.meets_throw (hraised error herror)
  · apply Effect.meets_bind
    apply Effect.meets_get
    apply Effect.meets_bind
    exact Effect.meets_modify hdone.1 (Effect.meets_pure hdone.2)

end Access

section Hooks

omit [DecidableEq Id] in
/-- An exception of a critical hook ends the success phase; every other one is passed over. -/
theorem runHooks_meets_cons
    {invoke : OfflineTaskResultHook Id Segment Json Duration → TaskProgram Id Json Duration Unit}
    {raiseCritical : Bool} {hook : OfflineTaskResultHook Id Segment Json Duration}
    {hooks : List (OfflineTaskResultHook Id Segment Json Duration)}
    {I : ProcessingWorld Id Json Duration → Prop}
    {Q : Unit → ProcessingWorld Id Json Duration → Prop}
    {E : String → ProcessingWorld Id Json Duration → Prop}
    (h : Effect.Meets I (invoke hook) v
      (fun _ u => Effect.Meets I (runHooks invoke raiseCritical hooks) u Q E)
      (fun error u => if hook.critical && raiseCritical then E error u
        else Effect.Meets I (runHooks invoke raiseCritical hooks) u Q E)) :
    Effect.Meets I (runHooks invoke raiseCritical (hook :: hooks)) v Q E := by
  unfold runHooks
  apply Effect.meets_bind
  apply Effect.meets_tryCatch
  refine h.mono (fun _ _ hu => hu) fun error u hu => ?_
  split at hu
  · next hraise =>
    rw [if_pos hraise]
    exact Effect.meets_throw hu
  · next hpass =>
    rw [if_neg hpass]
    exact Effect.meets_pure hu

/-- The backup hook records the key of what it has archived. -/
theorem audioBackupHook_meets (h : Unsaved v) (hkey : v.backupKey = none)
    (context : OfflineTaskContext) (result : RecognitionResult Segment Duration) :
    Effect.Meets service.Moment (service.audioBackupHook.onSuccess context result) v
      (fun _ u => service.Archived u) (fun _ u => Unsaved u) := by
  unfold audioBackupHook
  apply Effect.meets_bind
  refine Effect.meets_ofExcept (fun stored _ => ?_) fun _ _ => h
  cases stored with
  | none =>
    refine Effect.meets_pure ⟨h, fun key hsome => ?_⟩
    rw [hkey] at hsome
    cases hsome
  | some stored =>
    have hset : Unsaved { v with backupKey := some stored.s3Key } := ⟨h.saved, h.cleaned⟩
    apply Effect.meets_bind
    refine Effect.meets_modify hset.moment ?_
    apply Effect.meets_bind
    have hfound := beforeAccess_unsaved service .recordFileInfo hset
    have hdone : Unsaved { service.beforeAccess .recordFileInfo
        { v with backupKey := some stored.s3Key } with
      repository := ((service.beforeAccess .recordFileInfo
        { v with backupKey := some stored.s3Key }).repository.recordFileInfo service.taskId
          (some stored.s3Key) (some stored.fileSha256)).1 } := ⟨hfound.saved, hfound.cleaned⟩
    refine access_meets hfound.moment (fun _ _ => hfound) ⟨hdone.moment, ?_⟩
    refine Effect.meets_pure ⟨hdone, fun key hsome row hrow => ?_⟩
    have hbackup : (service.beforeAccess .recordFileInfo
        { v with backupKey := some stored.s3Key }).backupKey = some stored.s3Key := by
      unfold beforeAccess
      split <;> rfl
    obtain rfl := Option.some.inj (hbackup.symm.trans hsome)
    obtain ⟨old, -, rfl⟩ := getById_changeRow (by intro _; rfl) hrow
    rfl

/-- The result file does not concern the task. -/
theorem textResultFileHook_meets (h : service.Archived v) (context : OfflineTaskContext)
    (result : RecognitionResult Segment Duration) :
    Effect.Meets service.Moment (service.textResultFileHook.onSuccess context result) v
      (fun _ u => service.Archived u) (fun _ u => Unsaved u) := by
  unfold textResultFileHook
  apply Effect.meets_bind
  refine Effect.meets_ofExcept (fun _ _ => ?_) fun _ _ => h.toUnsaved
  have hset : service.Archived { v with resultFile := some (result.fullText.getD "") } :=
    ⟨⟨h.saved, h.cleaned⟩, h.recorded⟩
  exact Effect.meets_modify hset.toUnsaved.moment hset

/-- The persistence hook completes the task, or raises when its row is gone. -/
theorem resultPersistenceHook_meets (h : service.Archived v) (context : OfflineTaskContext)
    (result : RecognitionResult Segment Duration) :
    Effect.Meets service.Moment (service.resultPersistenceHook.onSuccess context result) v
      (fun _ u => ∃ payload, service.buildOfflinePersistencePayload result = .ok payload ∧
        service.Saved payload u)
      (fun _ u => Unsaved u) := by
  unfold resultPersistenceHook
  apply Effect.meets_bind
  refine Effect.meets_ofExcept (fun payload hpayload => ?_) fun _ _ => h.toUnsaved
  apply Effect.meets_bind
  have hfound := beforeAccess_archived .saveResult h
  generalize hu : service.beforeAccess .saveResult v = u at hfound
  have hdone : Unsaved { u with
    repository := (u.repository.saveResult (service.clock .saveResult) service.taskId
      payload.fullText payload.segmentPayloads payload.processingTime
      (some payload.wordTimestamps)).1 } := ⟨hfound.saved, hfound.cleaned⟩
  refine access_meets (hu ▸ hfound.toUnsaved.moment) (fun _ _ => hu ▸ hfound.toUnsaved) ?_
  rw [hu]
  refine ⟨hdone.moment, ?_⟩
  split
  · next record hrecord =>
    obtain ⟨old, row, hold, hrow, hholds, hkey⟩ := saveResult_found hrecord
    have hsaved : service.Saved payload { u with
        repository := (u.repository.saveResult (service.clock .saveResult) service.taskId
          payload.fullText payload.segmentPayloads payload.processingTime
          (some payload.wordTimestamps)).1
        saved := some payload } :=
      ⟨rfl, row, hrow, hholds, fun key hbackup => by
        rw [hkey]
        exact hfound.recorded key hbackup old hold⟩
    refine Effect.meets_modify (hsaved.moment fun hcleaned => ?_)
      ⟨payload, hpayload, hsaved⟩
    exact absurd (hfound.cleaned.symm.trans hcleaned) (by decide)
  · exact Effect.meets_throw hdone
  · exact Effect.meets_throw hdone
  · exact Effect.meets_throw hdone

/-- The cleanup comes after the key and the result, and keeps its exceptions to itself. -/
theorem tempCleanupHook_meets {payload : OfflinePersistencePayload Json Duration}
    (h : service.Saved payload v) (context : OfflineTaskContext)
    (result : RecognitionResult Segment Duration) :
    Effect.Meets service.Moment (service.tempCleanupHook.onSuccess context result) v
      (fun _ u => service.Saved payload u) (fun _ _ => False) := by
  unfold tempCleanupHook
  apply Effect.meets_bind
  apply Effect.meets_get
  split
  · exact Effect.meets_pure h
  · exact Effect.meets_pure h
  · next key hne hkey =>
    have hafter : service.Saved payload { v with cleaned := true } := h
    apply Effect.meets_tryCatch
    apply Effect.meets_bind
    refine Effect.meets_modify (hafter.moment fun _ => ⟨key, hkey, fun hempty => ?_⟩) ?_
    · exact hne hempty
    · exact Effect.meets_ofExcept (fun _ _ => hafter) fun _ _ => Effect.meets_pure hafter

/-- The success phase saves the result, or raises before that. -/
theorem handleSuccess_meets (h : Unsaved v) (hkey : v.backupKey = none)
    (context : OfflineTaskContext) (result : RecognitionResult Segment Duration) :
    Effect.Meets service.Moment (service.handleSuccess context result) v
      (fun _ u => ∃ payload, service.buildOfflinePersistencePayload result = .ok payload ∧
        service.Saved payload u)
      (fun _ u => Unsaved u) := by
  unfold handleSuccess hooks
  apply runHooks_meets_cons
  refine (audioBackupHook_meets h hkey context result).mono (fun _ u harchived => ?_)
    fun _ _ hraised => hraised
  apply runHooks_meets_cons
  refine (textResultFileHook_meets harchived context result).mono (fun _ u harchived => ?_)
    fun _ _ hraised => hraised
  apply runHooks_meets_cons
  refine (resultPersistenceHook_meets harchived context result).mono
    (fun _ u ⟨payload, hpayload, hsaved⟩ => ?_) fun _ _ hraised => hraised
  apply runHooks_meets_cons
  exact (tempCleanupHook_meets hsaved context result).mono
    (fun _ u hdone => Effect.meets_pure ⟨payload, hpayload, hdone⟩) fun _ _ hfalse => hfalse.elim

/-- The failure phase records the error. -/
theorem handleFailure_meets (h : Unsaved v) (hrecord : service.repositoryRaises .recordError = none)
    (context : OfflineTaskContext) (error : String)
    {E : String → ProcessingWorld Id Json Duration → Prop} :
    Effect.Meets service.Moment (service.handleFailure context error) v
      (fun _ u => Unsaved u ∧ service.FailedWith error u) E := by
  unfold handleFailure hooks
  apply runHooks_meets_cons
  refine Effect.meets_pure ?_
  apply runHooks_meets_cons
  refine Effect.meets_pure ?_
  apply runHooks_meets_cons
  apply Effect.meets_bind
  have hfound := beforeAccess_unsaved service .recordError h
  generalize hu : service.beforeAccess .recordError v = u at hfound
  have hdone : Unsaved { u with repository := (u.repository.recordError
    (service.clock .recordError) service.taskId error).1 } := ⟨hfound.saved, hfound.cleaned⟩
  refine access_meets (hu ▸ hfound.moment)
    (fun raised hraised => absurd (hrecord.symm.trans hraised) (by simp)) ?_
  rw [hu]
  refine ⟨hdone.moment, Effect.meets_pure ?_⟩
  apply runHooks_meets_cons
  refine Effect.meets_pure (Effect.meets_pure ⟨hdone, fun row hrow => ?_⟩)
  obtain ⟨old, -, rfl⟩ := getById_changeRow (by intro _; rfl) hrow
  exact ⟨rfl, rfl⟩

end Hooks

section Run

/-- The handled part saves the result of the recognition, or raises before that. -/
theorem attempt_meets (h : Unsaved v) (hkey : v.backupKey = none)
    (task : TaskRecord Id Json Duration) (audioPath : String) :
    Effect.Meets service.Moment (service.attempt task audioPath) v
      (fun _ u => ∃ payload, service.Recognized task audioPath payload ∧ service.Saved payload u)
      (fun _ u => Unsaved u) := by
  unfold attempt
  apply Effect.meets_bind
  have hfound := beforeAccess_unsaved service .updateStatus h
  have hkey' : (service.beforeAccess .updateStatus v).backupKey = none := by
    unfold beforeAccess
    split <;> exact hkey
  generalize hu : service.beforeAccess .updateStatus v = u at hfound hkey'
  have hdone : Unsaved { u with repository := (u.repository.updateStatus
    (service.clock .updateStatus) service.taskId .processing).1 } := ⟨hfound.saved, hfound.cleaned⟩
  refine access_meets (hu ▸ hfound.moment) (fun _ _ => hu ▸ hfound) ?_
  rw [hu]
  refine ⟨hdone.moment, ?_⟩
  apply Effect.meets_bind
  refine Effect.meets_ofExcept (fun found _ => ?_) fun _ _ => hdone
  cases found with
  | false =>
    apply Effect.meets_bind
    exact Effect.meets_throw hdone
  | true =>
    apply Effect.meets_bind
    refine Effect.meets_ofExcept (fun hotwords hhotwords => ?_) fun _ _ => hdone
    apply Effect.meets_bind
    refine Effect.meets_ofExcept (fun result hresult => ?_) fun _ _ => hdone
    have hsuccess (herror : result.error.getD "" = "") := (handleSuccess_meets hdone hkey'
      ⟨task.filename, audioPath, task.email⟩ result).mono
        (fun _ u ⟨payload, hpayload, hsaved⟩ =>
          (⟨payload, ⟨hotwords, result, hhotwords, hresult, herror, hpayload⟩, hsaved⟩ :
            ∃ payload, service.Recognized task audioPath payload ∧ service.Saved payload u))
        fun _ _ hraised => hraised
    split
    · next herror => exact hsuccess (by rw [herror]; rfl)
    · next herror => exact hsuccess (by rw [herror]; rfl)
    · exact Effect.meets_throw hdone

/-- A run returns `True` after it has saved the result of the recognition, and `False` with the task
failed or gone. -/
theorem processTask_meets (h : Unsaved w) (hkey : w.backupKey = none)
    (hrecord : service.repositoryRaises .recordError = none) :
    Effect.Meets service.Moment service.processTask w
      (fun returned u =>
        (returned = true → ∃ task audioPath payload, service.Reads w task audioPath ∧
          service.Recognized task audioPath payload ∧ service.Saved payload u) ∧
        (returned = false → Unsaved u ∧
          (u.repository.getById service.taskId = none ∨ ∃ task audioPath error,
            service.Reads w task audioPath ∧
              (service.attempt task audioPath w).result = .error error ∧
                service.FailedWith error u)))
      (fun _ u => Unsaved u) := by
  have hfound := beforeAccess_unsaved service .getTask h
  unfold processTask
  apply Effect.meets_bind
  refine access_meets hfound.moment (fun _ _ => hfound) ⟨hfound.moment, ?_⟩
  dsimp only
  split
  · next hnone =>
    have hgone := Option.map_eq_none_iff.mp (Reply.record.inj hnone)
    exact Effect.meets_pure ⟨fun htrue => Bool.noConfusion htrue, fun _ => ⟨hfound, .inl hgone⟩⟩
  · next hcount => cases hcount
  · next herror => cases herror
  · next task htask =>
    -- a row that was found has not been deleted before
    have hsame : service.beforeAccess .getTask w = w := by
      unfold beforeAccess
      split
      · next hdeleted =>
        unfold beforeAccess SqlTaskRepository.getTask at htask
        rw [if_pos hdeleted, getById_deleteRow] at htask
        cases htask
      · rfl
    rw [hsame] at htask ⊢
    have hread := Reply.record.inj htask
    apply Effect.meets_bind
    refine Effect.meets_ofExcept (fun audioPath hpath => ?_) fun _ _ => h
    have hreads : service.Reads w task audioPath := ⟨hread, hpath⟩
    apply Effect.meets_tryCatch
    apply Effect.meets_bind
    refine (attempt_meets h hkey task audioPath).raised.mono
      (fun _ u ⟨payload, hrecognized, hsaved⟩ => ?_) fun error u ⟨hunsaved, hraised⟩ => ?_
    · exact Effect.meets_pure ⟨fun _ => ⟨task, audioPath, payload, hreads, hrecognized, hsaved⟩,
        fun hfalse => Bool.noConfusion hfalse⟩
    · apply Effect.meets_bind
      refine (handleFailure_meets hunsaved hrecord _ error).mono
        (fun _ u ⟨hunsaved, hfailed⟩ => ?_) fun _ _ hu => hu
      exact Effect.meets_pure ⟨fun htrue => Bool.noConfusion htrue,
        fun _ => ⟨hunsaved, .inr ⟨task, audioPath, error, hreads, hraised, hfailed⟩⟩⟩

/-- When recording an error does not raise, a run returns `True` exactly when it ends with the task
completed and the result of its recognition saved in it. When it returns `False`, a task that is
still there has failed with the error of the run. At every moment a saved result is in the
completed task, and the temp audio is only cleaned up with the archive key recorded there too. -/
theorem processTask_outcome (service : OfflineTaskService Id Segment Json Duration Hotwords)
    (repository : SqlTaskRepository Id Json Duration) (resultFile : Option String)
    (hrecord : service.repositoryRaises .recordError = none) :
    let w := ProcessingWorld.start repository resultFile
    let run := service.processTask w
    (run.result = .ok true ↔ ∃ task audioPath payload, service.Reads w task audioPath ∧
      service.Recognized task audioPath payload ∧ run.final.saved = some payload ∧
        ∃ row, run.final.repository.getById service.taskId = some row ∧
          HoldsPayload row payload) ∧
    (run.result = .ok false → ∀ row, run.final.repository.getById service.taskId = some row →
      ∃ task audioPath error, service.Reads w task audioPath ∧
        (service.attempt task audioPath w).result = .error error ∧
          row.status = .failed ∧ row.errorMessage = some error) ∧
    ∀ v ∈ run.visited, service.Moment v := by
  dsimp only
  have hmeets := processTask_meets
    (w := .start repository resultFile) ⟨rfl, rfl⟩ rfl hrecord
  unfold Effect.Meets at hmeets
  generalize service.processTask (.start repository resultFile) = run at hmeets ⊢
  obtain ⟨hvisited, hresult⟩ := hmeets
  refine ⟨?_, ?_, hvisited⟩
  · cases hr : run.result with
    | error error =>
      simp only [hr] at hresult
      refine iff_of_false (by simp) fun ⟨_, _, payload, _, _, hsaved, _⟩ => ?_
      rw [hresult.saved] at hsaved
      cases hsaved
    | ok returned =>
      simp only [hr] at hresult
      cases returned with
      | true =>
        obtain ⟨task, audioPath, payload, hreads, hrecognized, hsaved, row, hrow, hholds, -⟩ :=
          hresult.1 rfl
        exact iff_of_true rfl
          ⟨task, audioPath, payload, hreads, hrecognized, hsaved, row, hrow, hholds⟩
      | false =>
        refine iff_of_false (by simp) fun ⟨_, _, payload, _, _, hsaved, _⟩ => ?_
        rw [(hresult.2 rfl).1.saved] at hsaved
        cases hsaved
  · intro hfalse row hrow
    simp only [hfalse] at hresult
    rcases (hresult.2 trivial).2 with hgone | ⟨task, audioPath, error, hreads, hraised, hfailed⟩
    · rw [hgone] at hrow
      cases hrow
    · obtain ⟨hstatus, herror⟩ := hfailed row hrow
      exact ⟨task, audioPath, error, hreads, hraised, hstatus, herror⟩

end Run

end OfflineTaskService

/-- Task 7, whose audio is archived, and whose temp directory is busy. -/
def quietService : OfflineTaskService ℕ ℕ ℕ ℕ Unit where
  taskId := 7
  showId := toString
  resolve filename := .ok filename
  audioExists _ := .ok true
  loadHotwords _ := .ok ()
  recognize _ _ := .ok ⟨[4, 5], some "text", 9, none⟩
  handleComplete _ := .ok (some ⟨"7/a.wav", "hash"⟩)
  writeText := .ok ()
  toDict segment := .ok segment
  timestamp segment := some [segment]
  cleanup := .error "busy"
  repositoryRaises _ := none
  deletedBefore _ := false
  clock _ := 100

/-- The run saves its result and cleans up, although the cleanup raises. -/
theorem quietService_outcome :
    let run := quietService.processTask (.start ⟨[⟨7, "a.wav", none, none, none, none, false,
      .pending, false, none, none, none, none, none, 0, 3, 1, none, none, none, none, none⟩]⟩ none)
    run.result = .ok true ∧ run.final.cleaned = true ∧ run.visited.length = 8 ∧
      ∀ v ∈ run.visited, quietService.Moment v :=
  ⟨rfl, rfl, rfl, (OfflineTaskService.processTask_outcome quietService _ none rfl).2.2⟩

end FunasrApi.Processing

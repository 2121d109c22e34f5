import FunasrApi.Processing.SpkTask

/-!
# What a run of an SPK task leaves behind

A run that returns `False` has left the task failed, if it is still there, and the
temp audio is only removed after archiving, in a run that returns `True`. But
`True` is also returned when the row was gone at the end, and nothing was saved.
-/

namespace FunasrApi.Processing

open FunasrApi.Core FunasrApi.Repositories FunasrApi.Tasks

variable {Id Segment Json Duration : Type} [DecidableEq Id]

namespace SpkTaskService

variable (service : SpkTaskService Id Segment Json Duration)

/-- The payload is what the diarization of this run has found. -/
def Diarized (task : SpkTask Id Json Duration) (audioPath : String)
    (payload : SpeakerDict Json) : Prop :=
  ∃ answer result, service.diarize audioPath task.filename = .ok answer ∧
    requireResult answer = .ok result ∧ service.toDict result = .ok payload

/-- The task is completed with the payload. -/
def Holds (payload : SpeakerDict Json) (v : SpkWorld Id Json Duration) : Prop :=
  ∃ row, v.repository.getTask service.taskId = some row ∧ row.status = .completed ∧
    row.result = some payload ∧ row.segments = some payload.segments ∧
    row.speakerIds = some payload.speakerIds ∧ row.speakerCount = payload.speakerCount

/-- `True` is returned only with the task completed with the result of this run, `False` only
with the task failed or gone, and the temp audio is removed only in the first case, after it
has been archived. -/
structure KeepsPromise (task : SpkTask Id Json Duration)
    (run : Outcome (SpkWorld Id Json Duration) String Bool) : Prop where
  completed : run.result = .ok true → ∃ audioPath payload,
    service.resolve task.filename = .ok audioPath ∧
      service.Diarized task audioPath payload ∧ service.Holds payload run.final
  failed : run.result = .ok false → ∀ row,
    run.final.repository.getTask service.taskId = some row → row.status = .failed
  cleaned : run.final.cleaned = true → run.result = .ok true
  archived : ∀ v ∈ run.visited, v.cleaned = true → v.archived.isSome

/-- Every step of the run up to `save_result` succeeds. -/
structure Succeeds (task : SpkTask Id Json Duration) (audioPath : String)
    (payload : SpeakerDict Json) : Prop where
  audio : service.audioExists audioPath = .ok true
  marked : service.repositoryRaises .updateStatus = none
  diarized : service.Diarized task audioPath payload
  stored : ∃ stored, service.handleComplete audioPath task.filename task.email = .ok stored
  saved : service.repositoryRaises .saveResult = none

/-- Somebody deletes the row after it has been loaded and before the result is saved, and
nothing else goes wrong. -/
def LosesRow (task : SpkTask Id Json Duration) : Prop :=
  (service.deletedBefore .updateStatus = true ∨ service.deletedBefore .saveResult = true) ∧
    service.repositoryRaises .getTask = none ∧
    ∃ audioPath payload, service.resolve task.filename = .ok audioPath ∧
      service.Succeeds task audioPath payload

variable {service} {v : SpkWorld Id Json Duration}

section Access

/-- The world that an access finds. -/
def beforeAccess (service : SpkTaskService Id Segment Json Duration) (kind : SpkRepositoryAccess)
    (v : SpkWorld Id Json Duration) : SpkWorld Id Json Duration :=
  if service.deletedBefore kind then service.deleteRow v else v

theorem getTask_beforeAccess (kind : SpkRepositoryAccess) :
    (service.beforeAccess kind v).repository.getTask service.taskId =
      if service.deletedBefore kind then none else v.repository.getTask service.taskId := by
  unfold beforeAccess
  split
  · exact SqlSpeakerTaskRepository.getTask_deleteRow
  · rfl

@[simp] theorem beforeAccess_cleaned (kind : SpkRepositoryAccess) :
    (service.beforeAccess kind v).cleaned = v.cleaned := by
  unfold beforeAccess
  split <;> rfl

@[simp] theorem beforeAccess_archived (kind : SpkRepositoryAccess) :
    (service.beforeAccess kind v).archived = v.archived := by
  unfold beforeAccess
  split <;> rfl

/-- An access acts on the world that it finds, or raises there. -/
theorem access_meets {α : Type} {kind : SpkRepositoryAccess}
    {call : SqlSpeakerTaskRepository Id Json Duration →
      SqlSpeakerTaskRepository Id Json Duration × α}
    {I : SpkWorld Id Json Duration → Prop} {Q : α → SpkWorld Id Json Duration → Prop}
    {E : String → SpkWorld Id Json Duration → Prop}
    (hfound : I (service.beforeAccess kind v))
    (hraised : ∀ error, service.repositoryRaises kind = some error →
      E error (service.beforeAccess kind v))
    (hdone : service.repositoryRaises kind = none → let u := service.beforeAccess kind v
      I { u with repository := (call u.repository).1 } ∧
        Q (call u.repository).2 { u with repository := (call u.repository).1 }) :
    Effect.Meets I (service.access kind call) v Q E := by
  unfold access
  refine Effect.meets_ite_modify hfound ?_
  show Effect.Meets I _ (service.beforeAccess kind v) Q E
  split
  · next error herror => exact Effect.meets_throw (hraised error herror)
  · next hnone =>
    apply Effect.meets_bind
    apply Effect.meets_get
    apply Effect.meets_bind
    exact Effect.meets_modify (hdone hnone).1 (Effect.meets_pure (hdone hnone).2)

end Access

section Run

/-- The temp audio has not been removed without being archived. -/
def Moment (v : SpkWorld Id Json Duration) : Prop := v.cleaned = true → v.archived.isSome

omit [DecidableEq Id] in
theorem Moment.of_kept (h : v.cleaned = false) : Moment v :=
  fun hcleaned => absurd (h.symm.trans hcleaned) Bool.false_ne_true

/-- The row is there after an access that keeps the ids, unless somebody has deleted it. -/
theorem getTask_changeRow_beforeAccess (service : SpkTaskService Id Segment Json Duration)
    (v : SpkWorld Id Json Duration) (kind : SpkRepositoryAccess)
    {f : SpkTask Id Json Duration → SpkTask Id Json Duration} (hf : ∀ row, (f row).id = row.id) :
    ((service.beforeAccess kind v).repository.changeRow service.taskId f).1.getTask
        service.taskId =
      if service.deletedBefore kind then none
      else (v.repository.getTask service.taskId).map f := by
  rw [SqlSpeakerTaskRepository.getTask_changeRow hf, getTask_beforeAccess]
  split <;> rfl

/-- The end of the handled part: `save_result` completes the task if its row is there, and the
temp audio is removed if it has been archived. -/
theorem saveResult_meets (service : SpkTaskService Id Segment Json Duration)
    {stored : Option StoredAudio} (hcleaned : v.cleaned = false) (harchived : v.archived = stored)
    (payload : SpeakerDict Json) :
    Effect.Meets Moment
      (do
        let _ ← service.access .saveResult fun repository =>
          repository.saveResult (service.clock .saveResult) service.taskId payload
            service.elapsed (stored.map StoredAudio.s3Key) (stored.map StoredAudio.fileSha256)
        if stored.isSome then Effect.modify fun w => { w with cleaned := true }) v
      (fun _ u => service.repositoryRaises .saveResult = none ∧
        (service.deletedBefore .saveResult = true ∨ v.repository.getTask service.taskId = none →
          u.repository.getTask service.taskId = none) ∧
        (service.deletedBefore .saveResult = false →
          ∀ row, v.repository.getTask service.taskId = some row → service.Holds payload u))
      (fun _ u => u.cleaned = false ∧ service.repositoryRaises .saveResult ≠ none) := by
  have hkept : (service.beforeAccess .saveResult v).cleaned = false := by simpa using hcleaned
  have hfound := getTask_changeRow_beforeAccess service v .saveResult
    (f := fun task => { task with
      result := some payload
      segments := some payload.segments
      speakerIds := some payload.speakerIds
      speakerCount := payload.speakerCount
      processingTime := some service.elapsed
      s3Key := orText (stored.map StoredAudio.s3Key) task.s3Key
      fileHash := orText (stored.map StoredAudio.fileSha256) task.fileHash
      status := .completed
      completedAt := some (service.clock .saveResult) }) fun _ => rfl
  have hend : ∀ cleaned : Bool,
      let u : SpkWorld Id Json Duration := { service.beforeAccess .saveResult v with
        repository := ((service.beforeAccess .saveResult v).repository.saveResult
          (service.clock .saveResult) service.taskId payload service.elapsed
          (stored.map StoredAudio.s3Key) (stored.map StoredAudio.fileSha256)).1
        cleaned := cleaned }
      (service.deletedBefore .saveResult = true ∨ v.repository.getTask service.taskId = none →
        u.repository.getTask service.taskId = none) ∧
      (service.deletedBefore .saveResult = false →
        ∀ row, v.repository.getTask service.taskId = some row → service.Holds payload u) := by
    intro cleaned
    refine ⟨fun hgone => hfound.trans ?_, fun hthere row hrow => ?_⟩
    · rcases hgone with hdeleted | hnone
      · rw [hdeleted]
        rfl
      · rw [hnone]
        split <;> rfl
    · rw [hthere, hrow] at hfound
      exact ⟨_, hfound, rfl, rfl, rfl, rfl, rfl⟩
  apply Effect.meets_bind
  refine access_meets (.of_kept hkept) (fun error herror => ⟨hkept, ?_⟩)
    fun hsaved => ⟨.of_kept hkept, ?_⟩
  · rw [herror]
    exact Option.some_ne_none error
  · split
    · next hsome =>
      refine Effect.meets_modify (fun _ => ?_) ⟨hsaved, hend true⟩
      simpa [harchived] using hsome
    · have hlast := hend (service.beforeAccess .saveResult v).cleaned
      exact Effect.meets_pure ⟨hsaved, hlast⟩

omit [DecidableEq Id] in
/-- What the diarization has answered, the payload is made of. -/
theorem Diarized.result {task : SpkTask Id Json Duration} {audioPath : String}
    {payload : SpeakerDict Json} (h : service.Diarized task audioPath payload)
    {answer : Option (SpeakerResult Segment Json)}
    (hanswer : service.diarize audioPath task.filename = .ok answer) :
    ∃ result, requireResult answer = .ok result ∧ service.toDict result = .ok payload := by
  obtain ⟨_, result, hanswer', hresult, hpayload⟩ := h
  obtain rfl := Except.ok.inj (hanswer.symm.trans hanswer')
  exact ⟨result, hresult, hpayload⟩

omit [DecidableEq Id] in
theorem Diarized.payload {task : SpkTask Id Json Duration} {audioPath : String}
    {payload : SpeakerDict Json} (h : service.Diarized task audioPath payload)
    {answer : Option (SpeakerResult Segment Json)} {result : SpeakerResult Segment Json}
    (hanswer : service.diarize audioPath task.filename = .ok answer)
    (hresult : requireResult answer = .ok result) : service.toDict result = .ok payload := by
  obtain ⟨_, hresult', hpayload⟩ := h.result hanswer
  obtain rfl := Except.ok.inj (hresult.symm.trans hresult')
  exact hpayload

/-- The handled part ends with the task completed, or without its row when somebody has deleted
it. It raises when a step fails. -/
theorem attempt_meets {row : SpkTask Id Json Duration} (hcleaned : v.cleaned = false)
    (hrow : v.repository.getTask service.taskId = some row) (task : SpkTask Id Json Duration)
    (audioPath : String) :
    Effect.Meets Moment (service.attempt task audioPath) v
      (fun _ u => ∃ payload, service.Succeeds task audioPath payload ∧
        if service.deletedBefore .updateStatus ∨ service.deletedBefore .saveResult
        then u.repository.getTask service.taskId = none
        else service.Holds payload u)
      (fun _ u => u.cleaned = false ∧ ∀ payload, ¬ service.Succeeds task audioPath payload) := by
  unfold attempt
  apply Effect.meets_bind
  refine Effect.meets_ofExcept (fun found hfound => ?_)
    fun error herror => ⟨hcleaned, fun payload h => nomatch h.audio.symm.trans herror⟩
  cases found with
  | false =>
    apply Effect.meets_bind
    exact Effect.meets_throw ⟨hcleaned, fun payload h => nomatch h.audio.symm.trans hfound⟩
  | true =>
    apply Effect.meets_bind
    have hkept : (service.beforeAccess .updateStatus v).cleaned = false := by simpa using hcleaned
    have hrow' := getTask_changeRow_beforeAccess service v .updateStatus
      (f := fun task => { task with
        status := .processing
        startedAt := some (service.clock .updateStatus)
        completedAt := task.completedAt }) fun _ => rfl
    refine access_meets (.of_kept hkept)
      (fun error herror => ⟨hkept, fun payload h => nomatch h.marked.symm.trans herror⟩)
      fun hmarked => ⟨.of_kept hkept, ?_⟩
    apply Effect.meets_bind
    refine Effect.meets_ofExcept (fun answer hanswer => ?_) fun error herror =>
      ⟨hkept, fun payload h => ?_⟩
    · apply Effect.meets_bind
      refine Effect.meets_ofExcept (fun result hresult => ?_) fun error herror =>
        ⟨hkept, fun payload h => ?_⟩
      · apply Effect.meets_bind
        refine Effect.meets_ofExcept (fun stored hstored => ?_) fun error herror =>
          ⟨hkept, fun payload h => nomatch h.stored.choose_spec.symm.trans herror⟩
        apply Effect.meets_bind
        refine Effect.meets_modify (.of_kept hkept) ?_
        apply Effect.meets_bind
        refine Effect.meets_ofExcept (fun payload hpayload => ?_) fun error herror =>
          ⟨hkept, fun payload h => nomatch (h.diarized.payload hanswer hresult).symm.trans herror⟩
        refine (saveResult_meets service (by exact hkept) (by rfl) payload).mono
          (fun _ u ⟨hsaved, hgone, hthere⟩ => ?_)
          fun error u hu => ⟨hu.1, fun payload h => hu.2 h.saved⟩
        refine ⟨payload, ⟨hfound, hmarked, ⟨answer, result, hanswer, hresult, hpayload⟩,
          ⟨stored, hstored⟩, hsaved⟩, ?_⟩
        rw [hrow] at hrow'
        split
        · next hdeleted =>
          rcases hdeleted with hdeleted | hdeleted
          · rw [hdeleted] at hrow'
            exact hgone (.inr hrow')
          · exact hgone (.inl hdeleted)
        · next hkeep =>
          obtain ⟨hstatus, hsave⟩ := not_or.mp hkeep
          rw [if_neg hstatus] at hrow'
          exact hthere (Bool.eq_false_iff.mpr hsave) _ hrow'
      · obtain ⟨_, hresult, -⟩ := h.diarized.result hanswer
        exact nomatch hresult.symm.trans herror
    · obtain ⟨_, _, hanswer, -⟩ := h.diarized
      exact nomatch hanswer.symm.trans herror

/-- The failed task is recorded, if it is still there. -/
theorem recordError_meets (hcleaned : v.cleaned = false)
    (hrecord : service.repositoryRaises .recordError = none) (error : String)
    {E : String → SpkWorld Id Json Duration → Prop} :
    Effect.Meets Moment
      (do
        let _ ← service.access .recordError fun repository =>
          repository.recordError (service.clock .recordError) service.taskId error
        pure false) v
      (fun returned u => returned = false ∧ u.cleaned = false ∧
        ∀ row, u.repository.getTask service.taskId = some row → row.status = .failed) E := by
  have hkept : (service.beforeAccess .recordError v).cleaned = false := by simpa using hcleaned
  have hfound := getTask_changeRow_beforeAccess service v .recordError
    (f := fun task => { task with
      errorMessage := some error
      retryCount := task.retryCount + 1
      status := .failed
      completedAt := some (service.clock .recordError) }) fun _ => rfl
  apply Effect.meets_bind
  refine access_meets (.of_kept hkept)
    (fun raised hraised => absurd (hrecord.symm.trans hraised) (by simp))
    fun _ => ⟨.of_kept hkept, Effect.meets_pure ⟨rfl, hkept, fun row hrow => ?_⟩⟩
  have hafter := hfound.symm.trans hrow
  split at hafter
  · cases hafter
  · obtain ⟨old, -, rfl⟩ := Option.map_eq_some_iff.mp hafter
    rfl

/-- A run on a task that is there: `True` when every step succeeds, also when somebody has deleted
the row, and `False` with the task failed or gone when one fails. -/
theorem processTask_meets {task : SpkTask Id Json Duration} (hcleaned : v.cleaned = false)
    (htask : v.repository.getTask service.taskId = some task)
    (hthere : service.deletedBefore .getTask = false)
    (hrecord : service.repositoryRaises .recordError = none) :
    Effect.Meets Moment service.processTask v
      (fun returned u => service.repositoryRaises .getTask = none ∧
        ∃ audioPath, service.resolve task.filename = .ok audioPath ∧
        ((returned = true ∧ ∃ payload, service.Succeeds task audioPath payload ∧
            if service.deletedBefore .updateStatus ∨ service.deletedBefore .saveResult
            then u.repository.getTask service.taskId = none
            else service.Holds payload u) ∨
          (returned = false ∧ u.cleaned = false ∧
            (∀ row, u.repository.getTask service.taskId = some row → row.status = .failed) ∧
            ∀ payload, ¬ service.Succeeds task audioPath payload)))
      (fun _ u => u.cleaned = false ∧ (service.repositoryRaises .getTask = none →
        ∀ audioPath, service.resolve task.filename ≠ .ok audioPath)) := by
  have hsame : service.beforeAccess .getTask v = v := if_neg (by simp [hthere])
  unfold processTask
  apply Effect.meets_bind
  refine access_meets (by rw [hsame]; exact .of_kept hcleaned) (fun error herror => ?_)
    fun hget => ?_
  · rw [hsame]
    exact ⟨hcleaned, fun hnone => absurd (hnone.symm.trans herror) (by simp)⟩
  rw [hsame]
  dsimp only
  rw [htask]
  refine ⟨.of_kept hcleaned, ?_⟩
  apply Effect.meets_bind
  refine Effect.meets_ofExcept (fun audioPath hpath => ?_)
    fun error herror => ⟨hcleaned, fun _ path hpath => by rw [hpath] at herror; cases herror⟩
  apply Effect.meets_tryCatch
  apply Effect.meets_bind
  refine (attempt_meets hcleaned htask task audioPath).mono (fun _ u hu => ?_)
    fun error u ⟨hkept, hfails⟩ => ?_
  · exact Effect.meets_pure ⟨hget, audioPath, hpath, .inl ⟨rfl, hu⟩⟩
  · exact (recordError_meets hkept hrecord error).mono
      (fun _ u ⟨hreturned, hkept, hfailed⟩ =>
        ⟨hget, audioPath, hpath, .inr ⟨hreturned, hkept, hfailed, hfails⟩⟩) fun _ _ hu => hu

/-- A run on a task that is there keeps its promise, unless somebody deletes the row before the
result is saved and nothing else goes wrong. -/
theorem processTask_keepsPromise_iff (service : SpkTaskService Id Segment Json Duration)
    (repository : SqlSpeakerTaskRepository Id Json Duration) (task : SpkTask Id Json Duration)
    (htask : repository.getTask service.taskId = some task)
    (hthere : service.deletedBefore .getTask = false)
    (hrecord : service.repositoryRaises .recordError = none) :
    service.KeepsPromise task (service.processTask ⟨repository, false, none⟩) ↔
      ¬ service.LosesRow task := by
  have hmeets := processTask_meets (v := ⟨repository, false, none⟩) rfl htask hthere hrecord
  unfold Effect.Meets at hmeets
  generalize service.processTask ⟨repository, false, none⟩ = run at hmeets ⊢
  obtain ⟨hvisited, hresult⟩ := hmeets
  cases hr : run.result with
  | error error =>
    simp only [hr] at hresult
    obtain ⟨hkept, hpath⟩ := hresult
    refine iff_of_true ⟨?_, ?_, ?_, hvisited⟩ ?_
    · exact fun htrue => by rw [hr] at htrue; cases htrue
    · exact fun hfalse => by rw [hr] at hfalse; cases hfalse
    · exact fun hcleaned => absurd (hkept.symm.trans hcleaned) Bool.false_ne_true
    · exact fun ⟨_, hget, audioPath, _, hresolve, _⟩ => hpath hget audioPath hresolve
  | ok returned =>
    simp only [hr] at hresult
    obtain ⟨hget, audioPath, hpath, ⟨rfl, payload, hsucceeds, hend⟩ |
      ⟨rfl, hkept, hfailed, hfails⟩⟩ := hresult
    · by_cases hdeleted : service.deletedBefore .updateStatus = true ∨
          service.deletedBefore .saveResult = true
      · rw [if_pos hdeleted] at hend
        refine iff_of_false (fun hpromise => ?_)
          (not_not_intro ⟨hdeleted, hget, audioPath, payload, hpath, hsucceeds⟩)
        obtain ⟨_, _, _, _, row, hrow, -⟩ := hpromise.completed hr
        rw [hend] at hrow
        cases hrow
      · rw [if_neg hdeleted] at hend
        refine iff_of_true ⟨?_, ?_, ?_, hvisited⟩ fun hloses => hdeleted hloses.1
        · exact fun _ => ⟨audioPath, payload, hpath, hsucceeds.diarized, hend⟩
        · exact fun hfalse => by rw [hr] at hfalse; cases hfalse
        · exact fun _ => hr
    · refine iff_of_true ⟨?_, ?_, ?_, hvisited⟩ ?_
      · exact fun htrue => by rw [hr] at htrue; cases htrue
      · exact fun _ => hfailed
      · exact fun hcleaned => absurd (hkept.symm.trans hcleaned) Bool.false_ne_true
      · intro ⟨_, _, path, payload, hresolve, hsucceeds⟩
        obtain rfl := Except.ok.inj (hpath.symm.trans hresolve)
        exact hfails payload hsucceeds

end Run

end SpkTaskService

/-- Task 7, which is archived, and whose row somebody deletes before the given access. -/
def deletedService (deleted : SpkRepositoryAccess → Bool) : SpkTaskService ℕ ℕ ℕ ℕ where
  taskId := 7
  resolve filename := .ok filename
  audioExists _ := .ok true
  diarize _ _ := .ok (some ⟨[4, 5], [1], 1, none, 0⟩)
  handleComplete _ _ _ := .ok (some ⟨"7/a.wav", "hash"⟩)
  segmentToDict segment := .ok segment
  elapsed := 9
  repositoryRaises _ := none
  deletedBefore := deleted
  clock _ := 100

/-- The table with the task in it. -/
def oneSpkTask : SqlSpeakerTaskRepository ℕ ℕ ℕ := ⟨[{ id := 7, filename := "a.wav" }]⟩

/-- Nobody deletes the row, and the run keeps its promise. -/
theorem undeleted_keepsPromise :
    (deletedService fun _ => false).KeepsPromise { id := 7, filename := "a.wav" }
      ((deletedService fun _ => false).processTask ⟨oneSpkTask, false, none⟩) :=
  (SpkTaskService.processTask_keepsPromise_iff (deletedService fun _ => false) oneSpkTask _
    rfl rfl rfl).mpr fun hloses => hloses.1.elim Bool.false_ne_true Bool.false_ne_true

/-- The row is deleted before `save_result`: the run returns `True` and removes the temp audio,
and nothing has been saved. -/
theorem deleted_breaksPromise :
    let service := deletedService fun access => access matches .saveResult
    let run := service.processTask ⟨oneSpkTask, false, none⟩
    run.result = .ok true ∧ run.final.cleaned = true ∧ run.final.repository.getTask 7 = none ∧
      ¬ service.KeepsPromise { id := 7, filename := "a.wav" } run := by
  refine ⟨rfl, rfl, rfl, fun hpromise => ?_⟩
  obtain ⟨_, _, _, _, row, hrow, -⟩ := hpromise.completed rfl
  cases hrow

end FunasrApi.Processing

import FunasrApi.Core.Alike
import FunasrApi.Processing.Outcome
import FunasrApi.Processing.SpkOutcome

/-!
# Runs on the rows of other tasks

`process_task` reads and writes the row of its task, under its id. What it does depends on no
other row, and it leaves every other row as it is, at every moment of the run.
-/

namespace FunasrApi.Processing

open FunasrApi.Core FunasrApi.Core.Effect FunasrApi.Repositories FunasrApi.Tasks

section Offline

variable {Id Segment Json Duration Hotwords : Type} [DecidableEq Id]

/-- Two worlds with the same row of a task; the other rows of the first one are `rest`. -/
structure SameTask (taskId : Id) (rest : Id → Option (OfflineTask Id Json Duration))
    (v v' : ProcessingWorld Id Json Duration) : Prop where
  own : v.repository.getById taskId = v'.repository.getById taskId
  rest : ∀ id ≠ taskId, v.repository.getById id = rest id
  backupKey : v.backupKey = v'.backupKey

/-- A call that reads and writes one row only. -/
structure OwnRow (taskId : Id)
    (call : SqlTaskRepository Id Json Duration →
      SqlTaskRepository Id Json Duration × Reply Id Json Duration) : Prop where
  alike : ∀ repository repository', repository.getById taskId = repository'.getById taskId →
    (call repository).1.getById taskId = (call repository').1.getById taskId ∧
      (call repository).2 = (call repository').2
  rest : ∀ repository, ∀ id ≠ taskId,
    (call repository).1.getById id = repository.getById id

theorem ownRow_changeRow {taskId : Id}
    {f : OfflineTask Id Json Duration → OfflineTask Id Json Duration}
    (hf : ∀ row, (f row).id = row.id) :
    OwnRow taskId fun repository => repository.changeRow taskId f := by
  constructor
  · intro repository repository' h
    have hmap (r : SqlTaskRepository Id Json Duration) :
        (r.changeRow taskId f).1.getById taskId = (r.getById taskId).map f :=
      Keyed.lookup_change hf
    have hreply (r : SqlTaskRepository Id Json Duration) : (r.changeRow taskId f).2 =
        .record ((r.getById taskId).map fun task => (f task).toRecord) := rfl
    rw [hmap, hmap, hreply, hreply, h]
    exact ⟨rfl, rfl⟩
  · intro repository id hid
    exact Keyed.lookup_change_of_ne hid hf

namespace OfflineTaskService

variable (service : OfflineTaskService Id Segment Json Duration Hotwords)
  {rest : Id → Option (OfflineTask Id Json Duration)}

/-- An access leaves the rows of other tasks alone, and does not see them. -/
theorem access_respects (kind : RepositoryAccess)
    {call : SqlTaskRepository Id Json Duration →
      SqlTaskRepository Id Json Duration × Reply Id Json Duration}
    (hcall : OwnRow service.taskId call) :
    Respects (SameTask service.taskId rest) (service.access kind call) := by
  -- the world that the access finds
  have hfound {x : TaskProgram Id Json Duration (Reply Id Json Duration)}
      (hx : Respects (SameTask service.taskId rest) x) : Respects (SameTask service.taskId rest)
        (Effect.modify service.deleteRow >>= fun _ => x) := by
    refine respects_bind (respects_modify fun v v' hv => ?_) fun _ => hx
    refine ⟨?_, fun id hid => (Keyed.lookup_filter_of_ne hid).trans (hv.rest id hid), hv.backupKey⟩
    rw [getById_deleteRow, getById_deleteRow]
  have hcalled : Respects (SameTask service.taskId rest) (do
      let w ← Effect.get
      Effect.modify fun w => { w with repository := (call w.repository).1 }
      pure (call w.repository).2 : TaskProgram Id Json Duration (Reply Id Json Duration)) := by
    refine respects_get fun w w' h => ?_
    obtain ⟨-, hreply⟩ := hcall.alike _ _ h.own
    refine ⟨?_, by rw [hreply]⟩
    refine respects_bind (respects_modify fun v v' hv => ?_) (fun _ => respects_pure _) w w' h
    exact ⟨(hcall.alike _ _ hv.own).1, fun id hid => (hcall.rest _ id hid).trans (hv.rest id hid),
      hv.backupKey⟩
  unfold access
  cases service.deletedBefore kind <;> cases service.repositoryRaises kind
  · exact hcalled
  · exact respects_throw _
  · exact hfound hcalled
  · exact hfound (respects_throw _)

theorem audioBackupHook_respects (context : OfflineTaskContext)
    (result : RecognitionResult Segment Duration) :
    Respects (SameTask service.taskId rest) (service.audioBackupHook.onSuccess context result) := by
  refine respects_bind (respects_ofExcept _) fun stored => ?_
  cases stored with
  | none => exact respects_pure _
  | some stored =>
    refine respects_bind (respects_modify fun v v' hv => ⟨hv.own, hv.rest, rfl⟩) fun _ => ?_
    exact respects_bind (service.access_respects _ (ownRow_changeRow fun _ => rfl))
      fun _ => respects_pure _

theorem textResultFileHook_respects (context : OfflineTaskContext)
    (result : RecognitionResult Segment Duration) :
    Respects (SameTask service.taskId rest)
      (service.textResultFileHook.onSuccess context result) :=
  respects_bind (respects_ofExcept _) fun _ =>
    respects_modify fun _ _ hv => ⟨hv.own, hv.rest, hv.backupKey⟩

theorem resultPersistenceHook_respects (context : OfflineTaskContext)
    (result : RecognitionResult Segment Duration) :
    Respects (SameTask service.taskId rest)
      (service.resultPersistenceHook.onSuccess context result) := by
  refine respects_bind (respects_ofExcept _) fun payload => ?_
  refine respects_bind (service.access_respects _ (ownRow_changeRow fun _ => rfl)) fun saved => ?_
  split
  · exact respects_modify fun _ _ hv => ⟨hv.own, hv.rest, hv.backupKey⟩
  · exact respects_throw _
  · exact respects_throw _
  · exact respects_throw _

theorem tempCleanupHook_respects (context : OfflineTaskContext)
    (result : RecognitionResult Segment Duration) :
    Respects (SameTask service.taskId rest)
      (service.tempCleanupHook.onSuccess context result) := by
  refine respects_get fun w w' h => ⟨?_, by rw [h.backupKey]⟩
  have hcleanup : Respects (SameTask service.taskId rest)
      (tryCatch (do
        Effect.modify fun w => { w with cleaned := true }
        Effect.ofExcept service.cleanup) fun _ => pure () : TaskProgram Id Json Duration Unit) :=
    respects_tryCatch (respects_bind
      (respects_modify fun _ _ hv => ⟨hv.own, hv.rest, hv.backupKey⟩)
      fun _ => respects_ofExcept _) fun _ => respects_pure _
  split
  · exact respects_pure _ w w' h
  · exact respects_pure _ w w' h
  · exact hcleanup w w' h

omit [DecidableEq Id] in
theorem runHooks_respects
    {R : ProcessingWorld Id Json Duration → ProcessingWorld Id Json Duration → Prop}
    {invoke : OfflineTaskResultHook Id Segment Json Duration → TaskProgram Id Json Duration Unit}
    {raiseCritical : Bool} {hooks : List (OfflineTaskResultHook Id Segment Json Duration)}
    (h : ∀ hook ∈ hooks, Respects R (invoke hook)) :
    Respects R (runHooks invoke raiseCritical hooks) := by
  induction hooks with
  | nil => exact respects_pure _
  | cons hook hooks ih =>
    refine respects_bind (respects_tryCatch (h hook List.mem_cons_self) fun error => ?_) fun _ => ?_
    · exact respects_ite (respects_throw _) (respects_pure _)
    · exact ih fun hook hmem => h hook (List.mem_cons_of_mem _ hmem)

theorem handleSuccess_respects (context : OfflineTaskContext)
    (result : RecognitionResult Segment Duration) :
    Respects (SameTask service.taskId rest) (service.handleSuccess context result) := by
  refine runHooks_respects fun hook hmem => ?_
  simp only [hooks, List.mem_cons, List.not_mem_nil, or_false] at hmem
  obtain rfl | rfl | rfl | rfl := hmem
  · exact service.audioBackupHook_respects context result
  · exact service.textResultFileHook_respects context result
  · exact service.resultPersistenceHook_respects context result
  · exact service.tempCleanupHook_respects context result

theorem handleFailure_respects (context : OfflineTaskContext) (error : String) :
    Respects (SameTask service.taskId rest) (service.handleFailure context error) := by
  refine runHooks_respects fun hook hmem => ?_
  simp only [hooks, List.mem_cons, List.not_mem_nil, or_false] at hmem
  obtain rfl | rfl | rfl | rfl := hmem
  · exact respects_pure _
  · exact respects_pure _
  · exact respects_bind (service.access_respects _ (ownRow_changeRow fun _ => rfl))
      fun _ => respects_pure _
  · exact respects_pure _

theorem attempt_respects (task : TaskRecord Id Json Duration) (audioPath : String) :
    Respects (SameTask service.taskId rest) (service.attempt task audioPath) := by
  refine respects_bind (service.access_respects _ (ownRow_changeRow fun _ => rfl)) fun _ => ?_
  refine respects_bind (respects_ofExcept _) fun found => ?_
  cases found with
  | false => exact respects_throw_bind _ _
  | true =>
    refine respects_bind (respects_ofExcept _) fun hotwords => ?_
    refine respects_bind (respects_ofExcept _) fun result => ?_
    split
    · exact service.handleSuccess_respects _ result
    · exact service.handleSuccess_respects _ result
    · exact respects_throw _

/-- A run neither sees nor changes the rows of other tasks. -/
theorem processTask_respects :
    Respects (SameTask service.taskId rest) service.processTask := by
  refine respects_bind (service.access_respects _ ⟨fun _ _ h => ⟨h, ?_⟩, fun _ _ _ => rfl⟩)
    fun reply => ?_
  · exact congrArg (fun row => Reply.record (Option.map OfflineTask.toRecord row)) h
  · split
    · exact respects_pure _
    · exact respects_pure _
    · exact respects_pure _
    · next task =>
      refine respects_bind (respects_ofExcept _) fun audioPath => ?_
      refine respects_tryCatch ?_ fun error => ?_
      · exact respects_bind (service.attempt_respects task audioPath) fun _ => respects_pure _
      · exact respects_bind (service.handleFailure_respects _ error) fun _ => respects_pure _

end OfflineTaskService

end Offline

section Spk

variable {Id Segment Json Duration : Type} [DecidableEq Id]

/-- Two worlds with the same row of an SPK task; the other rows of the first one are `rest`. -/
structure SameSpkTask (taskId : Id) (rest : Id → Option (SpkTask Id Json Duration))
    (v v' : SpkWorld Id Json Duration) : Prop where
  own : v.repository.getTask taskId = v'.repository.getTask taskId
  rest : ∀ id ≠ taskId, v.repository.getTask id = rest id

/-- A call that reads and writes one row only. -/
structure OwnSpkRow {α : Type} (taskId : Id)
    (call : SqlSpeakerTaskRepository Id Json Duration →
      SqlSpeakerTaskRepository Id Json Duration × α) : Prop where
  alike : ∀ repository repository', repository.getTask taskId = repository'.getTask taskId →
    (call repository).1.getTask taskId = (call repository').1.getTask taskId ∧
      (call repository).2 = (call repository').2
  rest : ∀ repository, ∀ id ≠ taskId,
    (call repository).1.getTask id = repository.getTask id

theorem ownSpkRow_changeRow {taskId : Id}
    {f : SpkTask Id Json Duration → SpkTask Id Json Duration} (hf : ∀ row, (f row).id = row.id) :
    OwnSpkRow taskId fun repository => repository.changeRow taskId f := by
  constructor
  · intro repository repository' h
    have hreply (r : SqlSpeakerTaskRepository Id Json Duration) :
        (r.changeRow taskId f).2 = (r.getTask taskId).map f := rfl
    rw [SqlSpeakerTaskRepository.getTask_changeRow hf,
      SqlSpeakerTaskRepository.getTask_changeRow hf, hreply, hreply, h]
    exact ⟨rfl, rfl⟩
  · intro repository id hid
    exact Keyed.lookup_change_of_ne hid hf

namespace SpkTaskService

variable (service : SpkTaskService Id Segment Json Duration)
  {rest : Id → Option (SpkTask Id Json Duration)}

/-- An access leaves the rows of other tasks alone, and does not see them. -/
theorem access_respects {α : Type} (kind : SpkRepositoryAccess)
    {call : SqlSpeakerTaskRepository Id Json Duration →
      SqlSpeakerTaskRepository Id Json Duration × α}
    (hcall : OwnSpkRow service.taskId call) :
    Respects (SameSpkTask service.taskId rest) (service.access kind call) := by
  have hfound {x : SpkProgram Id Json Duration α}
      (hx : Respects (SameSpkTask service.taskId rest) x) :
      Respects (SameSpkTask service.taskId rest)
        (Effect.modify service.deleteRow >>= fun _ => x) := by
    refine respects_bind (respects_modify fun v v' hv => ?_) fun _ => hx
    refine ⟨?_, fun id hid => (Keyed.lookup_filter_of_ne hid).trans (hv.rest id hid)⟩
    exact SqlSpeakerTaskRepository.getTask_deleteRow.trans
      SqlSpeakerTaskRepository.getTask_deleteRow.symm
  have hcalled : Respects (SameSpkTask service.taskId rest) (do
      let w ← Effect.get
      Effect.modify fun w => { w with repository := (call w.repository).1 }
      pure (call w.repository).2 : SpkProgram Id Json Duration α) := by
    refine respects_get fun w w' h => ?_
    obtain ⟨-, hreply⟩ := hcall.alike _ _ h.own
    refine ⟨?_, by rw [hreply]⟩
    refine respects_bind (respects_modify fun v v' hv => ?_) (fun _ => respects_pure _) w w' h
    exact ⟨(hcall.alike _ _ hv.own).1, fun id hid => (hcall.rest _ id hid).trans (hv.rest id hid)⟩
  unfold access
  cases service.deletedBefore kind <;> cases service.repositoryRaises kind
  · exact hcalled
  · exact respects_throw _
  · exact hfound hcalled
  · exact hfound (respects_throw _)

theorem attempt_respects (task : SpkTask Id Json Duration) (audioPath : String) :
    Respects (SameSpkTask service.taskId rest) (service.attempt task audioPath) := by
  refine respects_bind (respects_ofExcept _) fun found => ?_
  cases found with
  | false => exact respects_throw_bind _ _
  | true =>
    refine respects_bind (service.access_respects _ (ownSpkRow_changeRow fun _ => rfl)) fun _ => ?_
    refine respects_bind (respects_ofExcept _) fun answer => ?_
    refine respects_bind (respects_ofExcept _) fun result => ?_
    refine respects_bind (respects_ofExcept _) fun stored => ?_
    refine respects_bind (respects_modify fun _ _ hv => ⟨hv.own, hv.rest⟩) fun _ => ?_
    refine respects_bind (respects_ofExcept _) fun payload => ?_
    refine respects_bind (service.access_respects _ (ownSpkRow_changeRow fun _ => rfl)) fun _ => ?_
    exact respects_ite (respects_modify fun _ _ hv => ⟨hv.own, hv.rest⟩) (respects_pure _)

/-- A run neither sees nor changes the rows of other tasks. -/
theorem processTask_respects :
    Respects (SameSpkTask service.taskId rest) service.processTask := by
  refine respects_bind (service.access_respects _ ⟨fun _ _ h => ⟨h, h⟩, fun _ _ _ => rfl⟩)
    fun reply => ?_
  cases reply with
  | none => exact respects_pure _
  | some task =>
    refine respects_bind (respects_ofExcept _) fun audioPath => ?_
    refine respects_tryCatch ?_ fun error => ?_
    · exact respects_bind (service.attempt_respects task audioPath) fun _ => respects_pure _
    · exact respects_bind (service.access_respects _ (ownSpkRow_changeRow fun _ => rfl))
        fun _ => respects_pure _

end SpkTaskService

end Spk

section Isolated

variable {Id Segment Turn Json Duration Hotwords : Type} [DecidableEq Id]

end Isolated

/-- The row of a task after its creation. -/
def uploadedRow (taskId : ℕ) : OfflineTask ℕ ℕ ℕ :=
  ⟨taskId, "a.wav", none, none, none, none, false, .pending, false, none, none, none, none, none, 0,
    3, 1, none, none, none, none, none⟩

end FunasrApi.Processing

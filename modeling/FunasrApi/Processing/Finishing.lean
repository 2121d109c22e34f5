import FunasrApi.Processing.Outcome
import FunasrApi.Processing.SpkOutcome

/-!
# Runs finish their tasks

The lookup of the task, the resolution of its path and `record_error` are outside the `try` of
`process_task`. A run in which they do not raise leaves its task completed or failed, whatever
else goes wrong, unless somebody has deleted it.
-/

namespace FunasrApi.Processing

open FunasrApi.Core FunasrApi.Core.Effect FunasrApi.Repositories FunasrApi.Tasks

variable {Id Segment Json Duration Hotwords : Type} [DecidableEq Id]

namespace OfflineTaskService

variable (service : OfflineTaskService Id Segment Json Duration Hotwords)

/-- Nothing raises outside the handled part of a run on a row. -/
structure Handles (row : Option (OfflineTask Id Json Duration)) : Prop where
  lookup : service.repositoryRaises .getTask = none
  path : ∀ task ∈ row, ∃ audioPath, service.resolve task.filename = .ok audioPath
  record : service.repositoryRaises .recordError = none

variable {service} {w : ProcessingWorld Id Json Duration}

/-- A run that handles its exceptions leaves its task completed, failed or deleted. -/
theorem processTask_finishes (hsaved : Unsaved w) (hkey : w.backupKey = none)
    (h : service.Handles (w.repository.getById service.taskId)) :
    ∀ row, (service.processTask w).final.repository.getById service.taskId = some row →
      row.status = .completed ∨ row.status = .failed := by
  have hmeets : Meets service.Moment service.processTask w
      (fun _ u => ∀ row, u.repository.getById service.taskId = some row →
        row.status = .completed ∨ row.status = .failed) fun _ _ => False := by
    have hfound := beforeAccess_unsaved service .getTask hsaved
    unfold processTask
    apply meets_bind
    refine access_meets hfound.moment
      (fun error herror => by cases h.lookup.symm.trans herror) ⟨hfound.moment, ?_⟩
    dsimp only
    split
    · next hnone =>
      have hgone := Option.map_eq_none_iff.mp (Reply.record.inj hnone)
      exact meets_pure fun row hrow => by rw [hgone] at hrow; cases hrow
    · next hcount => cases hcount
    · next herror => cases herror
    · next task htask =>
      have hsame : service.beforeAccess .getTask w = w := by
        unfold beforeAccess
        split
        · next hdeleted =>
          unfold beforeAccess SqlTaskRepository.getTask at htask
          rw [if_pos hdeleted, getById_deleteRow] at htask
          cases htask
        · rfl
      rw [hsame] at htask ⊢
      obtain ⟨row, hrow, rfl⟩ := Option.map_eq_some_iff.mp (Reply.record.inj htask)
      obtain ⟨audioPath, hpath⟩ := h.path row hrow
      apply meets_bind
      refine meets_ofExcept (fun path hok => ?_)
        fun error herror => by cases hpath.symm.trans herror
      apply meets_tryCatch
      apply meets_bind
      refine (attempt_meets hsaved hkey _ path).mono (fun _ u hu => ?_) fun error u hunsaved => ?_
      · obtain ⟨payload, -, -, saved, hsavedRow, hholds, -⟩ := hu
        refine meets_pure fun row hrow => .inl ?_
        rw [← Option.some.inj (hsavedRow.symm.trans hrow)]
        exact hholds.status
      · apply meets_bind
        refine (handleFailure_meets hunsaved h.record _ error).mono (fun _ u hu => ?_)
          fun _ _ hu => hu
        obtain ⟨-, hfailed⟩ := hu
        exact meets_pure fun row hrow => .inr (hfailed row hrow).1
  obtain ⟨-, hresult⟩ := hmeets
  split at hresult
  · exact hresult
  · exact hresult.elim

end OfflineTaskService

namespace SpkTaskService

variable (service : SpkTaskService Id Segment Json Duration)

/-- Nothing raises outside the handled part of a run on a row. -/
structure Handles (row : Option (SpkTask Id Json Duration)) : Prop where
  lookup : service.repositoryRaises .getTask = none
  path : ∀ task ∈ row, ∃ audioPath, service.resolve task.filename = .ok audioPath
  record : service.repositoryRaises .recordError = none

variable {service} {w : SpkWorld Id Json Duration}

/-- A run that handles its exceptions leaves its task completed, failed or deleted. -/
theorem processTask_finishes (hcleaned : w.cleaned = false)
    (h : service.Handles (w.repository.getTask service.taskId)) :
    ∀ row, (service.processTask w).final.repository.getTask service.taskId = some row →
      row.status = .completed ∨ row.status = .failed := by
  by_cases hthere : (service.beforeAccess .getTask w).repository.getTask service.taskId = none
  · -- the lookup finds nothing
    have hmeets : Meets (fun _ => True) service.processTask w
        (fun _ u => u.repository.getTask service.taskId = none) fun _ _ => False := by
      unfold processTask
      apply meets_bind
      refine access_meets trivial (fun error herror => by cases h.lookup.symm.trans herror)
        fun _ => ⟨trivial, ?_⟩
      dsimp only
      rw [hthere]
      exact meets_pure hthere
    obtain ⟨-, hresult⟩ := hmeets
    intro row hrow
    split at hresult
    · rw [hresult] at hrow
      cases hrow
    · exact hresult.elim
  · rw [getTask_beforeAccess] at hthere
    have hkept : service.deletedBefore .getTask = false := by
      by_contra hdeleted
      exact hthere (if_pos (by simpa using hdeleted))
    rw [if_neg (by simp [hkept])] at hthere
    obtain ⟨task, htask⟩ := Option.ne_none_iff_exists'.mp hthere
    obtain ⟨-, hresult⟩ := processTask_meets hcleaned htask hkept h.record
    obtain ⟨audioPath, hpath⟩ := h.path task htask
    intro row hrow
    split at hresult
    · obtain ⟨-, -, -, ⟨-, payload, -, hdone⟩ | ⟨-, -, hfailed, -⟩⟩ := hresult
      · split at hdone
        · rw [hdone] at hrow
          cases hrow
        · obtain ⟨found, hfound, hstatus, -⟩ := hdone
          rw [← Option.some.inj (hfound.symm.trans hrow)]
          exact .inl hstatus
      · exact .inr (hfailed row hrow)
    · exact (hresult.2 h.lookup audioPath hpath).elim

end SpkTaskService

end FunasrApi.Processing

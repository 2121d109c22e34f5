import FunasrApi.Repositories.TaskRepositories

/-!
# The memory repository stands for the SQL one

Over the same calls and the same clock, the records of the one repository are
those of the other, until the status of a task is set to `failed`: only
`MemoryTaskRepository` notes the time of completion then.
-/

namespace FunasrApi.Repositories

open FunasrApi.Core FunasrApi.Tasks

variable {Id Json Duration : Type}

/-- The id that a call creates. -/
def TaskCall.createdId : TaskCall Id Json Duration → Option Id
  | .createTask task => some task.taskId
  | .updateStatus .. | .saveResult .. | .recordError .. | .recordFileInfo ..
  | .recoverStaleProcessing _ => none

/-- The id of the task that `update_status` sets to `failed`. -/
def TaskCall.failedId : TaskCall Id Json Duration → Option Id
  | .updateStatus taskId .failed => some taskId
  | .updateStatus _ .pending | .updateStatus _ .processing | .updateStatus _ .completed
  | .createTask _ | .saveResult .. | .recordError .. | .recordFileInfo ..
  | .recoverStaleProcessing _ => none

/-- Calls with the readings of the clock: they increase, and no id is created twice. -/
structure Admissible (calls : List (ℤ × TaskCall Id Json Duration)) : Prop where
  clock : (calls.map Prod.fst).Pairwise (· < ·)
  fresh : (calls.filterMap fun c => c.2.createdId).Nodup

/-- No call sets the status of a task to `failed` that is there by then. -/
def MarksNoTaskFailed (known : List Id) : List (ℤ × TaskCall Id Json Duration) → Prop
  | [] => True
  | (_, call) :: calls =>
    (∀ taskId ∈ call.failedId, taskId ∉ known) ∧
      MarksNoTaskFailed (known ++ call.createdId.toList) calls

variable [DecidableEq Id]

/-- The repositories cannot be told apart by what they hold. -/
structure Alike (memory : MemoryTaskRepository Id Json Duration)
    (sql : SqlTaskRepository Id Json Duration) : Prop where
  getTask : ∀ taskId, memory.getTask taskId = sql.getTask taskId
  pending : ∀ now limit answer, sql.PendingTasks limit answer →
    (memory.getPendingTasks now limit).map TaskRecord.id = answer.map TaskRecord.id

/-- All calls return the same, and leave the repositories alike. -/
def AgreeFrom (memory : MemoryTaskRepository Id Json Duration)
    (sql : SqlTaskRepository Id Json Duration) : List (ℤ × TaskCall Id Json Duration) → Prop
  | [] => True
  | (now, call) :: calls =>
    (memory.call now call).2 = (sql.call now call).2 ∧
      Alike (memory.call now call).1 (sql.call now call).1 ∧
        AgreeFrom (memory.call now call).1 (sql.call now call).1 calls

/-- The memory repository holds the records of the table, in the order of their creation, and
all of it happened before `now`. -/
structure Simulates (memory : MemoryTaskRepository Id Json Duration)
    (sql : SqlTaskRepository Id Json Duration) (known : List Id) (now : ℤ) : Prop where
  tasks : memory.tasks = sql.rows.map OfflineTask.toRecord
  ids : sql.rows.map OfflineTask.id = known
  created : (sql.rows.map OfflineTask.createdAt).Pairwise (· < ·)
  created_before : ∀ row ∈ sql.rows, row.createdAt < now
  completed_before : ∀ row ∈ sql.rows, ∀ t ∈ row.completedAt, t < now

section Order

omit [DecidableEq Id] in
theorem OfflineTask.toRecord_id (row : OfflineTask Id Json Duration) : row.toRecord.id = row.id :=
  rfl

variable (now : ℤ)

instance : Std.Total (@MemoryTaskRepository.pendingLe Id Json Duration now) where
  total a b := by
    unfold MemoryTaskRepository.pendingLe
    cases a.vip <;> cases b.vip <;> simp [Int.le_total]

instance : IsTrans _ (@MemoryTaskRepository.pendingLe Id Json Duration now) where
  trans a b c := by
    unfold MemoryTaskRepository.pendingLe
    cases a.vip <;> cases b.vip <;> cases c.vip <;> simp <;> exact le_trans

omit [DecidableEq Id] in
/-- The sort key of the one repository is the order of the other. -/
theorem pendingLe_toRecord (a b : OfflineTask Id Json Duration) :
    MemoryTaskRepository.pendingLe now a.toRecord b.toRecord ↔ SqlTaskRepository.pendingLe a b := by
  unfold MemoryTaskRepository.pendingLe SqlTaskRepository.pendingLe
  simp only [OfflineTask.toRecord, Option.getD_some]
  cases a.vip <;> cases b.vip <;> simp

end Order

section Simulation

variable {memory : MemoryTaskRepository Id Json Duration}
  {sql : SqlTaskRepository Id Json Duration} {known : List Id} {now : ℤ}

omit [DecidableEq Id] in
/-- Without two rows of one time of creation, the query has one answer. -/
theorem Simulates.getPendingTasks (h : Simulates memory sql known now) (clock : ℤ) {limit : ℕ}
    {answer : List (TaskRecord Id Json Duration)} (hanswer : sql.PendingTasks limit answer) :
    memory.getPendingTasks clock limit = answer := by
  obtain ⟨ordered, hperm, hsorted, rfl⟩ := hanswer
  have hpending : memory.tasks.filter (fun task => task.status = .pending) =
      (sql.rows.filter fun task => task.status = .pending).map OfflineTask.toRecord := by
    rw [h.tasks, List.filter_map]
    rfl
  have hinj := List.inj_on_of_nodup_map h.created.nodup
  rw [MemoryTaskRepository.getPendingTasks, hpending, List.map_take]
  congr 1
  refine List.Perm.eq_of_pairwise ?_
    (List.pairwise_insertionSort (MemoryTaskRepository.pendingLe clock) _) ?_ ?_
  · -- rows that compare equal both ways were created at the same time
    intro a b ha hb hab hba
    rw [List.mem_insertionSort] at ha
    obtain ⟨x, hx, rfl⟩ := List.mem_map.mp ha
    obtain ⟨y, hy, rfl⟩ := List.mem_map.mp hb
    have hxmem := (List.mem_filter.mp hx).1
    have hymem := (List.mem_filter.mp (hperm.mem_iff.mp hy)).1
    rw [pendingLe_toRecord] at hab hba
    have hsame : x.createdAt = y.createdAt := by
      rcases hab with hlt | ⟨hvip, hle⟩
      · rcases hba with hgt | ⟨hvip, -⟩
        · exact absurd hgt hlt.asymm
        · exact absurd hvip hlt.ne
      · rcases hba with hgt | ⟨-, hge⟩
        · exact absurd hvip hgt.ne
        · exact le_antisymm hle hge
    rw [hinj hxmem hymem hsame]
  · refine hsorted.map _ fun a b hab => ?_
    exact (pendingLe_toRecord clock a b).mpr hab
  · exact (List.perm_insertionSort _ _).trans (hperm.map _).symm

theorem Simulates.getTask (h : Simulates memory sql known now) (taskId : Id) :
    memory.getTask taskId = sql.getTask taskId := by
  rw [MemoryTaskRepository.getTask, h.tasks, Keyed.lookup_map OfflineTask.toRecord_id]
  rfl

theorem Simulates.alike (h : Simulates memory sql known now) : Alike memory sql :=
  ⟨h.getTask, fun clock _ _ hanswer =>
    congrArg (List.map TaskRecord.id) (h.getPendingTasks clock hanswer)⟩

omit [DecidableEq Id] in
/-- Changes that correspond to each other keep the simulation. -/
theorem Simulates.map (h : Simulates memory sql known now) {later : ℤ} (hlater : now < later)
    {f : TaskRecord Id Json Duration → TaskRecord Id Json Duration}
    {g : OfflineTask Id Json Duration → OfflineTask Id Json Duration}
    (hfg : ∀ row ∈ sql.rows, f row.toRecord = (g row).toRecord)
    (hg : ∀ row, (g row).id = row.id ∧ (g row).createdAt = row.createdAt ∧
      ∀ t ∈ (g row).completedAt, t ∈ row.completedAt ∨ t = now) :
    Simulates ⟨memory.tasks.map f⟩ ⟨sql.rows.map g⟩ known later := by
  have hids : (sql.rows.map g).map OfflineTask.id = sql.rows.map OfflineTask.id := by
    rw [List.map_map]
    exact List.map_congr_left fun row _ => (hg row).1
  have hcreated : (sql.rows.map g).map OfflineTask.createdAt =
      sql.rows.map OfflineTask.createdAt := by
    rw [List.map_map]
    exact List.map_congr_left fun row _ => (hg row).2.1
  refine ⟨?_, hids.trans h.ids, ?_, ?_, ?_⟩
  · show memory.tasks.map f = (sql.rows.map g).map _
    rw [h.tasks, List.map_map, List.map_map]
    exact List.map_congr_left hfg
  · rw [hcreated]
    exact h.created
  · intro row hrow
    obtain ⟨old, hold, rfl⟩ := List.mem_map.mp hrow
    rw [(hg old).2.1]
    exact (h.created_before old hold).trans hlater
  · intro row hrow t ht
    obtain ⟨old, hold, rfl⟩ := List.mem_map.mp hrow
    rcases (hg old).2.2 t ht with hkept | rfl
    · exact (h.completed_before old hold t hkept).trans hlater
    · exact hlater

/-- Changes under one id that correspond to each other return the same as well. -/
theorem Simulates.change (h : Simulates memory sql known now) {later : ℤ} (hlater : now < later)
    (taskId : Id) {f : TaskRecord Id Json Duration → TaskRecord Id Json Duration}
    {g : OfflineTask Id Json Duration → OfflineTask Id Json Duration}
    (hfg : ∀ row ∈ sql.rows, row.id = taskId → f row.toRecord = (g row).toRecord)
    (hg : ∀ row, (g row).id = row.id ∧ (g row).createdAt = row.createdAt ∧
      ∀ t ∈ (g row).completedAt, t ∈ row.completedAt ∨ t = now) :
    (memory.changeTask taskId f).2 = (sql.changeRow taskId g).2 ∧
      Simulates (memory.changeTask taskId f).1 (sql.changeRow taskId g).1 known later := by
  constructor
  · show Reply.record ((memory.getTask taskId).map f) = Reply.record _
    rw [h.getTask, SqlTaskRepository.getTask, Option.map_map]
    refine congrArg _ (Option.map_congr fun row hrow => ?_)
    obtain ⟨hmem, hid⟩ := Keyed.lookup_some hrow
    exact hfg row hmem hid
  · refine h.map hlater (fun row hrow => ?_) fun row => ?_
    · rw [OfflineTask.toRecord_id]
      split
      · next hid => exact hfg row hrow hid
      · rfl
    · split
      · exact hg row
      · exact ⟨rfl, rfl, fun _ ht => .inl ht⟩

/-- The row of a fresh id comes last in both repositories. -/
theorem Simulates.createTask (h : Simulates memory sql known now) {later : ℤ} (hlater : now < later)
    {task : NewTask Id} (hfresh : task.taskId ∉ known) :
    (memory.createTask now task).2 = (sql.createTask now task).2 ∧
      Simulates (memory.createTask now task).1 (sql.createTask now task).1
        (known ++ [task.taskId]) later := by
  have hnone : sql.getById task.taskId = none := by
    rw [SqlTaskRepository.getById, Keyed.lookup_eq_none_iff, h.ids]
    exact hfresh
  have hnone' : memory.getTask task.taskId = none := by
    rw [h.getTask, SqlTaskRepository.getTask, hnone, Option.map_none]
  unfold MemoryTaskRepository.createTask SqlTaskRepository.createTask
  simp only [hnone, hnone', Option.isSome_none, Bool.false_eq_true, if_false]
  refine ⟨rfl, ?_, ?_, ?_, ?_, ?_⟩
  · show memory.tasks ++ [_] = List.map _ (sql.rows ++ [_])
    rw [h.tasks, List.map_append]
    rfl
  · show List.map _ (sql.rows ++ [_]) = _
    rw [List.map_append, h.ids]
    rfl
  · show (List.map _ (sql.rows ++ [_])).Pairwise _
    rw [List.map_append]
    refine List.pairwise_append.mpr ⟨h.created, List.pairwise_singleton _ _, fun t ht u hu => ?_⟩
    obtain ⟨row, hrow, rfl⟩ := List.mem_map.mp ht
    rw [List.mem_singleton.mp hu]
    exact h.created_before row hrow
  · intro row hrow
    rcases List.mem_append.mp hrow with hold | hnew
    · exact (h.created_before row hold).trans hlater
    · rw [List.mem_singleton.mp hnew]
      exact hlater
  · intro row hrow t ht
    rcases List.mem_append.mp hrow with hold | hnew
    · exact (h.completed_before row hold t ht).trans hlater
    · rw [List.mem_singleton.mp hnew] at ht
      cases ht

omit [DecidableEq Id] in
/-- The two repositories recover the same tasks. -/
theorem isStale_toRecord (timeoutSeconds : ℤ) (row : OfflineTask Id Json Duration) :
    MemoryTaskRepository.isStale now timeoutSeconds row.toRecord =
      SqlTaskRepository.isStale now timeoutSeconds row := by
  unfold MemoryTaskRepository.isStale SqlTaskRepository.isStale
  simp only [OfflineTask.toRecord]
  by_cases hstatus : row.status = .processing
  · cases row.startedAt with
    | none => simp [hstatus]
    | some startedAt => simp [hstatus, ← decide_not]
  · simp [hstatus]

omit [DecidableEq Id] in
theorem Simulates.recoverStaleProcessing (h : Simulates memory sql known now) {later : ℤ}
    (hlater : now < later) (timeoutSeconds : ℤ) :
    (memory.recoverStaleProcessing now timeoutSeconds).2 =
        (sql.recoverStaleProcessing now timeoutSeconds).2 ∧
      Simulates (memory.recoverStaleProcessing now timeoutSeconds).1
        (sql.recoverStaleProcessing now timeoutSeconds).1 known later := by
  constructor
  · show Reply.count (memory.tasks.countP _) = Reply.count _
    rw [h.tasks, List.countP_map, List.countP_eq_length_filter]
    simp only [Function.comp_def, isStale_toRecord]
  · refine h.map hlater (fun row _ => ?_) fun row => ?_
    · rw [isStale_toRecord]
      split <;> rfl
    · split <;> exact ⟨rfl, rfl, fun _ ht => .inl ht⟩

/-- One call keeps the simulation and returns the same, unless it marks a task as failed. -/
theorem Simulates.call (h : Simulates memory sql known now) {later : ℤ} (hlater : now < later)
    {call : TaskCall Id Json Duration} (hfresh : ∀ taskId ∈ call.createdId, taskId ∉ known)
    (hmarks : ∀ taskId ∈ call.failedId, taskId ∉ known) :
    (memory.call now call).2 = (sql.call now call).2 ∧
      Simulates (memory.call now call).1 (sql.call now call).1
        (known ++ call.createdId.toList) later := by
  cases call with
  | createTask task => exact h.createTask hlater (hfresh _ rfl)
  | updateStatus taskId status =>
    rw [TaskCall.createdId, Option.toList_none, List.append_nil]
    refine h.change hlater taskId (fun row hrow hid => ?_) fun row => ⟨rfl, rfl, fun t ht => ?_⟩
    · cases status with
      | failed =>
        -- there is no such task
        have hknown : taskId ∈ known := by
          rw [← h.ids, ← hid]
          exact List.mem_map_of_mem hrow
        exact absurd hknown (hmarks _ rfl)
      | pending => rfl
      | processing => rfl
      | completed => rfl
    · dsimp only at ht
      split at ht
      · exact .inr (Option.some.inj ht).symm
      · exact .inl ht
  | saveResult taskId fullText segments processingTime wordTimestamps =>
    rw [TaskCall.createdId, Option.toList_none, List.append_nil]
    exact h.change hlater taskId (fun _ _ _ => rfl)
      fun _ => ⟨rfl, rfl, fun _ ht => .inr (Option.some.inj ht).symm⟩
  | recordError taskId errorMessage retry =>
    rw [TaskCall.createdId, Option.toList_none, List.append_nil]
    exact h.change hlater taskId (fun _ _ _ => rfl)
      fun _ => ⟨rfl, rfl, fun _ ht => .inr (Option.some.inj ht).symm⟩
  | recordFileInfo taskId s3Key fileHash =>
    rw [TaskCall.createdId, Option.toList_none, List.append_nil]
    exact h.change hlater taskId (fun _ _ _ => rfl) fun _ => ⟨rfl, rfl, fun _ ht => .inl ht⟩
  | recoverStaleProcessing timeoutSeconds =>
    rw [TaskCall.createdId, Option.toList_none, List.append_nil]
    exact h.recoverStaleProcessing hlater timeoutSeconds

/-- A task that is marked as failed has been completed now in the one repository, and not in the
other. -/
theorem Simulates.call_ne (h : Simulates memory sql known now) {call : TaskCall Id Json Duration}
    {taskId : Id} (hcall : taskId ∈ call.failedId) (hknown : taskId ∈ known) :
    (memory.call now call).2 ≠ (sql.call now call).2 := by
  obtain ⟨row, hrow⟩ : ∃ row, sql.getById taskId = some row := by
    rw [← Option.ne_none_iff_exists', SqlTaskRepository.getById, Ne, Keyed.lookup_eq_none_iff,
      h.ids]
    exact not_not.mpr hknown
  have htask : memory.getTask taskId = some row.toRecord := by
    rw [h.getTask, SqlTaskRepository.getTask, hrow, Option.map_some]
  have hcall' : call = .updateStatus taskId .failed := by
    cases call with
    | updateStatus id status =>
      cases status with
      | failed => rw [Option.some.inj hcall]
      | pending => cases hcall
      | processing => cases hcall
      | completed => cases hcall
    | createTask _ => cases hcall
    | saveResult _ _ _ _ _ => cases hcall
    | recordError _ _ _ => cases hcall
    | recordFileInfo _ _ _ => cases hcall
    | recoverStaleProcessing _ => cases hcall
  subst hcall'
  intro heq
  change Reply.record ((memory.getTask taskId).map _) =
    Reply.record ((sql.getById taskId).map _) at heq
  rw [htask, hrow] at heq
  have hcompleted : some now = row.completedAt :=
    congrArg TaskRecord.completedAt (Option.some.inj (Reply.record.inj heq))
  exact lt_irrefl now (h.completed_before row (Keyed.lookup_some hrow).1 now hcompleted.symm)

end Simulation

/-- From repositories of which the one simulates the other, calls agree if and only if none of them
marks a task as failed. -/
theorem Simulates.agreeFrom_iff {calls : List (ℤ × TaskCall Id Json Duration)}
    (hclock : (calls.map Prod.fst).Pairwise (· < ·)) {known : List Id}
    (hfresh : (known ++ calls.filterMap fun c => c.2.createdId).Nodup)
    {memory : MemoryTaskRepository Id Json Duration} {sql : SqlTaskRepository Id Json Duration}
    (h : ∀ now ∈ calls.map Prod.fst, Simulates memory sql known now) :
    AgreeFrom memory sql calls ↔ MarksNoTaskFailed known calls := by
  induction calls generalizing memory sql known with
  | nil => exact Iff.rfl
  | cons c calls ih =>
    obtain ⟨now, call⟩ := c
    have hnow : Simulates memory sql known now := h now (List.mem_cons_self ..)
    obtain ⟨hfirst, hrest⟩ := List.pairwise_cons.mp hclock
    have hsplit : (known ++ call.createdId.toList ++
        calls.filterMap fun c => c.2.createdId).Nodup := by
      rw [List.append_assoc]
      cases hid : call.createdId with
      | none => simpa [hid] using hfresh
      | some taskId => simpa [hid] using hfresh
    have hnew : ∀ taskId ∈ call.createdId, taskId ∉ known := by
      intro taskId hid hknown
      rw [Option.mem_def.mp hid] at hsplit
      exact (List.nodup_append.mp (List.nodup_append.mp hsplit).1).2.2 taskId hknown taskId
        (List.mem_singleton_self _) rfl
    by_cases hmarks : ∀ taskId ∈ call.failedId, taskId ∉ known
    · have hafter (later : ℤ) (hlater : now < later) := hnow.call hlater hnew hmarks
      have hih := ih hrest hsplit fun later hlater => (hafter later (hfirst later hlater)).2
      obtain ⟨hreply, hsim⟩ := hafter (now + 1) (by omega)
      exact ⟨fun hagree => ⟨hmarks, hih.mp hagree.2.2⟩,
        fun hnone => ⟨hreply, hsim.alike, hih.mpr hnone.2⟩⟩
    · push Not at hmarks
      obtain ⟨taskId, hid, hknown⟩ := hmarks
      exact iff_of_false (fun hagree => hnow.call_ne hid hknown hagree.1)
        fun hnone => hnone.1 taskId hid hknown

/-- The empty repositories agree on calls with an increasing clock and fresh ids if and only if none
of the calls marks a task as failed. -/
theorem agreeFrom_empty_iff {calls : List (ℤ × TaskCall Id Json Duration)}
    (h : Admissible calls) : AgreeFrom ⟨[]⟩ ⟨[]⟩ calls ↔ MarksNoTaskFailed [] calls :=
  Simulates.agreeFrom_iff h.clock h.fresh fun _ _ =>
    ⟨rfl, rfl, .nil, fun _ hrow => absurd hrow List.not_mem_nil,
      fun _ hrow => absurd hrow List.not_mem_nil⟩

/-- A task that is processed, fails, and is completed in the end. -/
def retriedTask : List (ℤ × TaskCall ℕ ℕ ℕ) :=
  [(1, .createTask ⟨7, "a.wav", some 100, none, none, none, true, none, none, none⟩),
    (2, .updateStatus 7 .processing), (3, .recordError 7 "timeout" false),
    (4, .recordFileInfo 7 (some "7/a.wav") none), (5, .recoverStaleProcessing 0),
    (6, .saveResult 7 "text" [1, 2] 9 none)]

/-- The repositories agree about it. -/
theorem retriedTask_agrees : AgreeFrom ⟨[]⟩ ⟨[]⟩ retriedTask :=
  (agreeFrom_empty_iff ⟨by decide, by decide⟩).mpr (by
    simp [retriedTask, MarksNoTaskFailed, TaskCall.failedId])

/-- A task whose status is set to `failed`: the memory repository has completed it. -/
theorem failedTask_not_agrees :
    ∃ calls : List (ℤ × TaskCall ℕ ℕ ℕ), Admissible calls ∧ ¬ AgreeFrom ⟨[]⟩ ⟨[]⟩ calls := by
  refine ⟨[(1, .createTask ⟨7, "a.wav", some 100, none, none, none, true, none, none, none⟩),
    (2, .updateStatus 7 .failed)], ⟨by decide, by decide⟩, fun hagree => ?_⟩
  exact absurd hagree.2.2.1 (by decide)

end FunasrApi.Repositories

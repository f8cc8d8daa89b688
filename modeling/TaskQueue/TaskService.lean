import TaskQueue.QueueRows
import Mathlib.Data.Int.Order.Basic
import Mathlib.Tactic.SplitIfs

/-!
# The task service

The functions of `app/services/task_service.py`, each as one request alone on the
tables. What a statement does to a single row is a definition of its own
(`requeueRow`, `claimRow`, `settleRow`), shared with the model of concurrent
requests. Numbers are unbounded and values are all stored here; what the columns refuse is
in `MachineNumbers` and `StorableValues`.
-/

namespace TaskQueue.TaskService
open KeyedTables

variable {Json : Type}

/-- The row that `submit_task` adds, once its two checks have passed. The uuid drawn for
the row, the clock reading and the later reading that fills `created_at` are arguments. -/
def queuedRow (cfg : Settings) (now createdAt : Time) (id : TaskId) (taskType : String)
    (payload : Json) (leaseMinutes retentionHours : Option Int) :
    Except ServiceError (Task Json) :=
  let resolvedLeaseMinutes := leaseMinutes.getD cfg.defaultLeaseMinutes
  let resolvedRetentionHours := retentionHours.getD cfg.defaultRetentionHours
  if resolvedLeaseMinutes ≤ 0 then
    .error (.taskServiceError "lease_minutes must be greater than zero")
  else if resolvedRetentionHours ≤ 0 then
    .error (.taskServiceError "retention_hours must be greater than zero")
  else .ok {
    id := id
    taskType := taskType
    payload := payload
    leaseMinutes := resolvedLeaseMinutes
    status := .queued
    result := none
    error := none
    claimedBy := none
    claimToken := none
    createdAt := createdAt
    claimedAt := none
    leaseExpiresAt := none
    completedAt := none
    progressStage := none
    progressMessage := none
    progressCurrent := none
    progressTotal := none
    progressUpdatedAt := none
    expiresAt := now + hours resolvedRetentionHours }

/-- `submit_task`; an id already present breaks the primary key. -/
def submitTask (cfg : Settings) (now createdAt : Time) (id : TaskId) (tasks : TaskTable Json)
    (taskType : String) (payload : Json) (leaseMinutes retentionHours : Option Int) :
    Except ServiceError (TaskTable Json × Task Json) := do
  let task ← queuedRow cfg now createdAt id taskType payload leaseMinutes retentionHours
  if h : tasks.get task.id = none then return (tasks.insertNew task h, task)
  else throw .integrityError

/-- `get_task`. -/
def getTask (tasks : TaskTable Json) (taskId : TaskId) : Except ServiceError (Task Json) :=
  match tasks.get taskId with
  | none => .error (.taskServiceError s!"task {taskId} not found")
  | some task => .ok task

/-- The `WHERE` clause of `_RECLAIM_SQL`; a null lease compares as unknown. -/
def leaseLapsed (taskTypes : List String) (now : Time) (task : Task Json) : Bool :=
  task.status = .claimed && taskTypes.contains task.taskType &&
    match task.leaseExpiresAt with
    | none => false
    | some lease => lease < now

/-- The `SET` clause of `_RECLAIM_SQL`. -/
def requeueRow (task : Task Json) : Task Json :=
  { task with
    status := .queued
    claimedBy := none
    claimToken := none
    claimedAt := none
    leaseExpiresAt := none
    progressStage := none
    progressMessage := none
    progressCurrent := none
    progressTotal := none
    progressUpdatedAt := none }

@[simp] theorem requeueRow_id (task : Task Json) : (requeueRow task).id = task.id := rfl

/-- `_RECLAIM_SQL`. -/
def reclaim (taskTypes : List String) (now : Time) (tasks : TaskTable Json) : TaskTable Json :=
  tasks.mapRows (fun task => if leaseLapsed taskTypes now task then requeueRow task else task)
    fun task => by split <;> rfl

/-- The `WHERE` clause of the candidate query. -/
def claimable (taskTypes : List String) (task : Task Json) : Bool :=
  task.status = .queued && taskTypes.contains task.taskType

/-- The `SET` clause of `_CLAIM_SQL`. -/
def claimRow (workerId claimToken : String) (now : Time) (leaseMinutes : Option Int)
    (task : Task Json) : Task Json :=
  { task with
    status := .claimed
    claimedBy := some workerId
    claimToken := some claimToken
    claimedAt := some now
    progressStage := some "claimed"
    progressMessage := some "Worker claimed task"
    progressCurrent := none
    progressTotal := none
    progressUpdatedAt := some now
    leaseExpiresAt := some (now + minutes (leaseMinutes.getD task.leaseMinutes)) }

@[simp] theorem claimRow_id (workerId claimToken : String) (now : Time)
    (leaseMinutes : Option Int) (task : Task Json) :
    (claimRow workerId claimToken now leaseMinutes task).id = task.id := rfl

/-- The candidate of `_CLAIM_SQL`: a claimable row with the least `created_at`. Among
equals the scan order decides. -/
def candidate (taskTypes : List String) (tasks : TaskTable Json) : Option (Task Json) :=
  (tasks.rows.filter (claimable taskTypes)).minOn? Task.createdAt

/-- `claim_next`: the sweep of lapsed leases, then the claim of one candidate. The cast of the
override, which fails from 2147483648 on, is in `MachineNumbers.claimNext`. -/
def claimNext (now : Time) (claimToken : String) (tasks : TaskTable Json)
    (taskTypes : List String) (workerId : String) (leaseMinutes : Option Int) :
    Except ServiceError (TaskTable Json × Option (Task Json)) :=
  if leaseMinutes.any (· ≤ 0) then
    .error (.taskServiceError "lease_minutes must be greater than zero")
  else
    let swept := reclaim taskTypes now tasks
    match candidate taskTypes swept with
    | none => .ok (swept, none)
    | some task =>
      .ok (swept.modify task.id (claimRow workerId claimToken now leaseMinutes)
          (claimRow_id workerId claimToken now leaseMinutes),
        some (claimRow workerId claimToken now leaseMinutes task))

/-- How a worker ends a task. -/
inductive Outcome (Json : Type)
  | complete (result : Json)
  | fail (error : String)
  deriving DecidableEq

/-- The two checks that `complete_task` and `fail_task` make on the loaded row. -/
def checkClaim (taskId : TaskId) (claimToken : String) (task : Task Json) :
    Except ServiceError Unit :=
  if task.status ≠ .claimed then
    .error (.taskServiceError s!"task {taskId} is not claimed (status={task.status.text})")
  else if task.claimToken ≠ some claimToken then
    .error (.taskServiceError (s!"task {taskId} claim_token mismatch -- stale claim, " ++
      "this task was reclaimed by someone else"))
  else .ok ()

/-- The columns that `complete_task` and `fail_task` assign. -/
def settleRow (outcome : Outcome Json) (now : Time) (task : Task Json) : Task Json :=
  match outcome with
  | .complete result =>
    { task with
      status := .done
      result := some result
      completedAt := some now
      progressStage := some "complete"
      progressMessage := some "Task completed"
      progressUpdatedAt := some now }
  | .fail error =>
    { task with
      status := .failed
      error := some error
      completedAt := some now
      progressStage := some "failed"
      progressMessage := some (String.ofList (error.toList.take 500))
      progressUpdatedAt := some now }

theorem settleRow_id (outcome : Outcome Json) (now : Time) (task : Task Json) :
    (settleRow outcome now task).id = task.id := by
  cases outcome <;> rfl

/-- The common body of `complete_task` and `fail_task`. -/
def settleTask (now : Time) (tasks : TaskTable Json) (taskId : TaskId) (claimToken : String)
    (outcome : Outcome Json) : Except ServiceError (TaskTable Json × Task Json) := do
  let task ← getTask tasks taskId
  checkClaim taskId claimToken task
  return (tasks.modify taskId (settleRow outcome now) (settleRow_id outcome now),
    settleRow outcome now task)

/-- `complete_task`. -/
def completeTask (now : Time) (tasks : TaskTable Json) (taskId : TaskId) (claimToken : String)
    (result : Json) : Except ServiceError (TaskTable Json × Task Json) :=
  settleTask now tasks taskId claimToken (.complete result)

/-- `fail_task`. -/
def failTask (now : Time) (tasks : TaskTable Json) (taskId : TaskId) (claimToken : String)
    (error : String) : Except ServiceError (TaskTable Json × Task Json) :=
  settleTask now tasks taskId claimToken (.fail error)

/-- The row of an accepted submission. -/
theorem queuedRow_ok {cfg : Settings} {now createdAt : Time} {id : TaskId} {taskType : String}
    {payload : Json} {leaseMinutes retentionHours : Option Int} {task : Task Json}
    (h : queuedRow cfg now createdAt id taskType payload leaseMinutes retentionHours = .ok task) :
    task.id = id ∧ task.status = .queued ∧ 0 < task.leaseMinutes := by
  dsimp only [queuedRow] at h
  split_ifs at h with hl hr
  cases h
  exact ⟨rfl, rfl, not_le.1 hl⟩

theorem submitTask_ok_iff {cfg : Settings} {now createdAt : Time} {id : TaskId}
    {tasks : TaskTable Json} {taskType : String} {payload : Json}
    {leaseMinutes retentionHours : Option Int} {r : TaskTable Json × Task Json} :
    submitTask cfg now createdAt id tasks taskType payload leaseMinutes retentionHours = .ok r ↔
      ∃ task, queuedRow cfg now createdAt id taskType payload leaseMinutes retentionHours =
          .ok task ∧
        ∃ h : tasks.get task.id = none, r = (tasks.insertNew task h, task) := by
  unfold submitTask
  cases queuedRow cfg now createdAt id taskType payload leaseMinutes retentionHours with
  | error e => simp [bind, Except.bind]
  | ok task =>
    by_cases h : tasks.get task.id = none
    · simp [bind, Except.bind, pure, Except.pure, h, eq_comm]
    · simp [bind, Except.bind, throw, throwThe, MonadExceptOf.throw, h]

theorem leaseLapsed_iff {taskTypes : List String} {now : Time} {task : Task Json} :
    leaseLapsed taskTypes now task = true ↔
      task.status = .claimed ∧ task.taskType ∈ taskTypes ∧
        ∃ lease, task.leaseExpiresAt = some lease ∧ lease < now := by
  cases h : task.leaseExpiresAt <;> simp [leaseLapsed, h, and_assoc]

theorem claimable_iff {taskTypes : List String} {task : Task Json} :
    claimable taskTypes task = true ↔ task.status = .queued ∧ task.taskType ∈ taskTypes := by
  simp [claimable]

theorem candidate_spec {taskTypes : List String} {tasks : TaskTable Json} {task : Task Json}
    (h : candidate taskTypes tasks = some task) :
    tasks.get task.id = some task ∧ task.status = .queued ∧ task.taskType ∈ taskTypes := by
  have hm := List.minOn?_mem h
  obtain ⟨hr, hc⟩ := List.mem_filter.1 hm
  exact ⟨Table.get_of_mem hr, claimable_iff.1 hc⟩

/-- The two ways an admitted claim can end: nothing was claimable after the sweep, or
one claimable row is claimed. -/
theorem claimNext_ok_cases {now : Time} {claimToken : String} {tasks : TaskTable Json}
    {taskTypes : List String} {workerId : String} {leaseMinutes : Option Int}
    {r : TaskTable Json × Option (Task Json)}
    (h : claimNext now claimToken tasks taskTypes workerId leaseMinutes = .ok r) :
    (∀ n, leaseMinutes = some n → 0 < n) ∧
      (r = (reclaim taskTypes now tasks, none) ∨
        ∃ task, (reclaim taskTypes now tasks).get task.id = some task ∧
          task.status = .queued ∧
          r = ((reclaim taskTypes now tasks).modify task.id
              (claimRow workerId claimToken now leaseMinutes)
              (claimRow_id workerId claimToken now leaseMinutes),
            some (claimRow workerId claimToken now leaseMinutes task))) := by
  unfold claimNext at h
  split_ifs at h with hl
  refine ⟨by rintro n rfl; simpa using hl, ?_⟩
  cases hc : candidate taskTypes (reclaim taskTypes now tasks) with
  | none =>
    simp only [hc, Except.ok.injEq] at h
    exact .inl h.symm
  | some task =>
    simp only [hc, Except.ok.injEq] at h
    obtain ⟨hg, hs, -⟩ := candidate_spec hc
    exact .inr ⟨task, hg, hs, h.symm⟩

theorem checkClaim_ok_iff {taskId : TaskId} {claimToken : String} {task : Task Json} :
    checkClaim taskId claimToken task = .ok () ↔
      task.status = .claimed ∧ task.claimToken = some claimToken := by
  unfold checkClaim
  split_ifs with hs ht
  · simp [hs]
  · simp [ht]
  · exact iff_of_true rfl ⟨not_not.1 hs, not_not.1 ht⟩

theorem getTask_ok_iff {tasks : TaskTable Json} {taskId : TaskId} {task : Task Json} :
    getTask tasks taskId = .ok task ↔ tasks.get taskId = some task := by
  unfold getTask
  split <;> simp_all

/-- What an accepted outcome found and what it left. -/
theorem settleTask_ok_iff {now : Time} {tasks : TaskTable Json} {taskId : TaskId}
    {claimToken : String} {outcome : Outcome Json} {r : TaskTable Json × Task Json} :
    settleTask now tasks taskId claimToken outcome = .ok r ↔
      ∃ task, tasks.get taskId = some task ∧ task.status = .claimed ∧
        task.claimToken = some claimToken ∧
        r = (tasks.modify taskId (settleRow outcome now) (settleRow_id outcome now),
          settleRow outcome now task) := by
  unfold settleTask
  cases hg : getTask tasks taskId with
  | error e =>
    have hn : tasks.get taskId = none := by
      cases ht : tasks.get taskId with
      | none => rfl
      | some task => rw [getTask_ok_iff.2 ht] at hg; cases hg
    simp [hn, bind, Except.bind]
  | ok task =>
    have ht := getTask_ok_iff.1 hg
    cases hc : checkClaim taskId claimToken task with
    | error e =>
      have hne : ¬(task.status = .claimed ∧ task.claimToken = some claimToken) := by
        intro hok
        rw [checkClaim_ok_iff.2 hok] at hc
        cases hc
      simp only [bind, Except.bind, hc, ht, Option.some.injEq, reduceCtorEq, false_iff]
      rintro ⟨x, rfl, hs, hk, -⟩
      exact hne ⟨hs, hk⟩
    | ok u =>
      obtain ⟨hs, hk⟩ := checkClaim_ok_iff.1 hc
      simp only [bind, Except.bind, hc, ht, pure, Except.pure, Except.ok.injEq,
        Option.some.injEq]
      constructor
      · rintro rfl
        exact ⟨task, rfl, hs, hk, rfl⟩
      · rintro ⟨x, rfl, -, -, rfl⟩
        rfl

end TaskQueue.TaskService

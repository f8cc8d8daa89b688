import TaskQueue.TaskService

/-!
# The worker service

`register_worker` and `heartbeat` of `app/services/worker_service.py`. Each is cut
where the source loads a row, so that the model of concurrent requests can run the
loads and the commit as separate steps. What the columns refuse is in `MachineNumbers` and
`StorableValues`.
-/

namespace TaskQueue.WorkerService
open KeyedTables TaskService

variable {Json : Type}

/-- `ACTIVE_LEASE_MINUTES`. -/
def activeLeaseMinutes : Int := 5

/-- The arguments of `register_worker`. -/
structure Registration (Json : Type) where
  workerId : String
  name : String
  sessionId : String
  capabilities : Json
  version : Option String
  ownerUserId : Option String

/-- The arguments of `heartbeat`. -/
structure Heartbeat (Json : Type) where
  workerId : String
  sessionId : String
  state : WorkerState
  currentTaskId : Option TaskId
  claimToken : Option String
  progressStage : Option String
  progressMessage : Option String
  progressCurrent : Option Int
  progressTotal : Option Int
  details : Option Json

section Register
variable [EmptyCollection Json]

/-- The check `register_worker` makes on the row it loaded, if there is one. -/
def checkOwner (req : Registration Json) : Option (Worker Json) → Except ServiceError Unit
  | none => .ok ()
  | some worker =>
    if req.ownerUserId ≠ none ∧ worker.ownerUserId ≠ req.ownerUserId then
      .error (.workerIdTaken
        (s!"worker id {req.workerId} is already registered to another account -- " ++
          "set a unique WORKER_ID in the worker's .env and restart it"))
    else .ok ()

/-- The columns `register_worker` assigns to a row that exists. -/
def registerRow (req : Registration Json) (now : Time) (worker : Worker Json) : Worker Json :=
  { worker with
    ownerUserId := req.ownerUserId
    name := req.name
    sessionId := req.sessionId
    capabilities := req.capabilities
    version := req.version
    details := ∅
    state := .idle
    currentTaskId := none
    sessionStartedAt := now
    lastHeartbeatAt := now }

@[simp] theorem registerRow_id (req : Registration Json) (now : Time) (worker : Worker Json) :
    (registerRow req now worker).id = worker.id := rfl

/-- The row `register_worker` inserts. -/
def newWorker (req : Registration Json) (now : Time) : Worker Json where
  id := req.workerId
  name := req.name
  sessionId := req.sessionId
  capabilities := req.capabilities
  details := ∅
  version := req.version
  state := .idle
  currentTaskId := none
  registeredAt := now
  sessionStartedAt := now
  lastHeartbeatAt := now
  ownerUserId := req.ownerUserId

/-- `register_worker`. -/
def registerWorker (now : Time) (workers : WorkerTable Json) (req : Registration Json) :
    Except ServiceError (WorkerTable Json × Worker Json) :=
  match h : workers.get (newWorker req now).id with
  | none => .ok (workers.insertNew (newWorker req now) h, newWorker req now)
  | some worker => do
    checkOwner req (some worker)
    return (workers.modify req.workerId (registerRow req now) (registerRow_id req now),
      registerRow req now worker)

omit [EmptyCollection Json] in
theorem checkOwner_ok_iff {req : Registration Json} {worker : Worker Json} :
    checkOwner req (some worker) = .ok () ↔
      req.ownerUserId = none ∨ worker.ownerUserId = req.ownerUserId := by
  unfold checkOwner
  by_cases hown : req.ownerUserId = none
  · simp [hown]
  · by_cases hsame : worker.ownerUserId = req.ownerUserId <;> simp [hown, hsame]

/-- The two ways a registration is accepted. -/
theorem registerWorker_ok_iff {now : Time} {workers : WorkerTable Json} {req : Registration Json}
    {r : WorkerTable Json × Worker Json} :
    registerWorker now workers req = .ok r ↔
      (∃ h : workers.get (newWorker req now).id = none,
        r = (workers.insertNew (newWorker req now) h, newWorker req now)) ∨
      ∃ worker, workers.get req.workerId = some worker ∧
        checkOwner req (some worker) = .ok () ∧
        r = (workers.modify req.workerId (registerRow req now) (registerRow_id req now),
          registerRow req now worker) := by
  have hid : (newWorker req now).id = req.workerId := rfl
  unfold registerWorker
  split
  next h => simp [h, hid ▸ h, eq_comm]
  next worker h =>
    rw [hid] at h
    cases hc : checkOwner req (some worker) with
    | error e => simp [h, hid, hc, bind, Except.bind]
    | ok u => simp [h, hid, hc, bind, Except.bind, pure, Except.pure, eq_comm]

end Register

/-- The checks of `heartbeat` up to the load of the task row. -/
def checkWorker (req : Heartbeat Json) : Option (Worker Json) → Except ServiceError Unit
  | none => .error (.workerServiceError s!"worker {req.workerId} is not registered")
  | some worker =>
    if worker.sessionId ≠ req.sessionId then
      .error (.workerServiceError
        s!"worker {req.workerId} session was replaced by a newer process")
    else if req.state = .busy ∧ req.currentTaskId = none then
      .error (.workerServiceError "a busy worker must report its current task")
    else if req.state = .idle ∧ req.currentTaskId ≠ none then
      .error (.workerServiceError "an idle worker cannot report a current task")
    else match req.progressCurrent, req.progressTotal with
      | some current, some total =>
        if current > total then
          .error (.workerServiceError "progress_current cannot exceed progress_total")
        else .ok ()
      | _, _ => .ok ()

/-- The checks of `heartbeat` on the task row it loaded. -/
def checkTask (req : Heartbeat Json) (taskId : TaskId) :
    Option (Task Json) → Except ServiceError Unit
  | none => .error (.workerServiceError s!"task {taskId} is not actively claimed")
  | some task =>
    if task.status ≠ .claimed then
      .error (.workerServiceError s!"task {taskId} is not actively claimed")
    else if task.claimedBy ≠ some req.workerId ∨ task.claimToken ≠ req.claimToken then
      .error (.workerServiceError "heartbeat does not own the current task claim")
    else .ok ()

/-- The worker columns `heartbeat` assigns. -/
def beatWorker (req : Heartbeat Json) (now : Time) (worker : Worker Json) : Worker Json :=
  { worker with
    state := req.state
    currentTaskId := req.currentTaskId
    lastHeartbeatAt := now
    details := req.details.getD worker.details }

@[simp] theorem beatWorker_id (req : Heartbeat Json) (now : Time) (worker : Worker Json) :
    (beatWorker req now worker).id = worker.id := rfl

/-- The task columns `heartbeat` assigns. -/
def beatTask (req : Heartbeat Json) (now : Time) (task : Task Json) : Task Json :=
  { task with
    progressStage := req.progressStage
    progressMessage := req.progressMessage
    progressCurrent := req.progressCurrent
    progressTotal := req.progressTotal
    progressUpdatedAt := some now
    leaseExpiresAt := some (now + minutes activeLeaseMinutes) }

@[simp] theorem beatTask_id (req : Heartbeat Json) (now : Time) (task : Task Json) :
    (beatTask req now task).id = task.id := rfl

/-- The checks of `heartbeat` on what its two loads found. -/
def checkLoads (req : Heartbeat Json) (worker : Option (Worker Json))
    (task : TaskId → Option (Task Json)) : Except ServiceError Unit := do
  checkWorker req worker
  match req.currentTaskId with
  | none => return ()
  | some taskId => checkTask req taskId (task taskId)

/-- Both loads of `heartbeat` with the checks that follow them. -/
def checkHeartbeat (tasks : TaskTable Json) (workers : WorkerTable Json) (req : Heartbeat Json) :
    Except ServiceError Unit :=
  checkLoads req (workers.get req.workerId) tasks.get

/-- The task table after the commit of a heartbeat. -/
def beatTasks (req : Heartbeat Json) (now : Time) (tasks : TaskTable Json) : TaskTable Json :=
  match req.currentTaskId with
  | none => tasks
  | some taskId => tasks.modify taskId (beatTask req now) (beatTask_id req now)

/-- `heartbeat`, for progress numbers, texts and details that the columns take. -/
def heartbeat (now : Time) (tasks : TaskTable Json) (workers : WorkerTable Json)
    (req : Heartbeat Json) : Except ServiceError (TaskTable Json × WorkerTable Json) := do
  checkHeartbeat tasks workers req
  return (beatTasks req now tasks,
    workers.modify req.workerId (beatWorker req now) (beatWorker_id req now))

/-- The progress numbers of a request do not contradict each other. -/
def ProgressInRange (current total : Option Int) : Prop :=
  ∀ c t, current = some c → total = some t → c ≤ t

theorem checkWorker_ok_iff {req : Heartbeat Json} {found : Option (Worker Json)} :
    checkWorker req found = .ok () ↔ ∃ worker, found = some worker ∧
      worker.sessionId = req.sessionId ∧ (req.state = .busy ↔ req.currentTaskId ≠ none) ∧
      ProgressInRange req.progressCurrent req.progressTotal := by
  cases found with
  | none => simp [checkWorker]
  | some worker =>
    simp only [checkWorker, Option.some.injEq, exists_eq_left']
    by_cases hs : worker.sessionId = req.sessionId
    · cases hb : req.state <;> cases ht : req.currentTaskId <;>
        cases hc : req.progressCurrent <;> cases hp : req.progressTotal <;>
          simp [hs, ProgressInRange]
    · simp [hs]

theorem checkTask_ok_iff {req : Heartbeat Json} {taskId : TaskId} {found : Option (Task Json)} :
    checkTask req taskId found = .ok () ↔ ∃ task, found = some task ∧ task.status = .claimed ∧
      task.claimedBy = some req.workerId ∧ task.claimToken = req.claimToken := by
  cases found with
  | none => simp [checkTask]
  | some task =>
    by_cases hs : task.status = .claimed
    · by_cases hb : task.claimedBy = some req.workerId <;>
        by_cases hk : task.claimToken = req.claimToken <;> simp [checkTask, hs, hb, hk]
    · simp [checkTask, hs]

theorem checkLoads_ok_iff {req : Heartbeat Json} {worker : Option (Worker Json)}
    {task : TaskId → Option (Task Json)} :
    checkLoads req worker task = .ok () ↔ checkWorker req worker = .ok () ∧
      ∀ taskId, req.currentTaskId = some taskId → checkTask req taskId (task taskId) = .ok () := by
  unfold checkLoads
  cases checkWorker req worker with
  | error e => simp [bind, Except.bind]
  | ok u =>
    cases ht : req.currentTaskId with
    | none => simp [bind, Except.bind, pure, Except.pure]
    | some taskId => simp [bind, Except.bind]

/-- What the checks of an accepted heartbeat found. -/
theorem checkHeartbeat_ok_iff {tasks : TaskTable Json} {workers : WorkerTable Json}
    {req : Heartbeat Json} :
    checkHeartbeat tasks workers req = .ok () ↔
      checkWorker req (workers.get req.workerId) = .ok () ∧
        ∀ taskId, req.currentTaskId = some taskId →
          checkTask req taskId (tasks.get taskId) = .ok () :=
  checkLoads_ok_iff

theorem heartbeat_ok_iff {now : Time} {tasks : TaskTable Json} {workers : WorkerTable Json}
    {req : Heartbeat Json} {r : TaskTable Json × WorkerTable Json} :
    heartbeat now tasks workers req = .ok r ↔ checkHeartbeat tasks workers req = .ok () ∧
      r = (beatTasks req now tasks,
        workers.modify req.workerId (beatWorker req now) (beatWorker_id req now)) := by
  unfold heartbeat
  cases checkHeartbeat tasks workers req with
  | error e => simp [bind, Except.bind]
  | ok u => simp [bind, Except.bind, pure, Except.pure, eq_comm]

end TaskQueue.WorkerService

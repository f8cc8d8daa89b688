import TaskQueue.Sessions
import TaskQueue.WorkerService
import TaskQueue.ArtifactService
import TaskQueue.Authentication

/-!
# The services on a session

The functions of `app/services` with the session they work in: what each loads, changes
and executes before it can still fail, and where it commits. Each is a unit of work that
raises with the tables as they were, or leaves what the function alone computes. The
`refresh` after a commit is taken not to fail: if it did, the request would raise with its
changes stored.
-/

namespace TaskQueue.SessionServices
open KeyedTables Sessions Uuid Authentication
open WorkerKeyService (KeyTable WorkerKey WorkerKeyError KeyOwner)
open ArtifactService (Artifact ArtifactTable ArtifactError UploadAttempt DeleteAttempt)
open WorkerService (Registration Heartbeat)
open TaskService (Outcome)

variable {Json : Type}

/-- The tables that the API reads and writes. -/
structure Tables (Json : Type) where
  tasks : TaskTable Json
  workers : WorkerTable Json
  artifacts : ArtifactTable
  keys : KeyTable

/-- The worker key cache of the process and the objects in the storage bucket. -/
structure Outside where
  cache : KeyCache
  objects : Finset String

/-- The exceptions of the services, of the guards, and of the database driver. -/
inductive Raised
  | service (error : ServiceError)
  | artifact (error : ArtifactError)
  | workerKey (error : WorkerKeyError)
  | databaseError
  | http (error : HttpError)
  deriving DecidableEq

abbrev Program (Json α : Type) := Sessions.Program Raised (Tables Json) Outside α

/-- A text sent for a uuid column; the database refuses one that it does not read. -/
def uuidColumn (text : String) : Program Json String :=
  match pgUuid text with
  | none => throw .databaseError
  | some id => pure id

section Rules
variable {α : Type} {d v : Tables Json} {p : List (Tables Json → Option (Tables Json))}
  {o : Outside} {Q : α → Session (Tables Json) Outside → Prop}
  {E : Raised → Tables Json → Outside → Prop}

theorem uuidColumn_bind {text : String} {f : String → Program Json α}
    (hbad : E .databaseError d o) (h : ∀ id, pgUuid text = some id → Runs d v p o (f id) Q E) :
    Runs d v p o (uuidColumn text >>= f) Q E := by
  unfold uuidColumn
  cases hid : pgUuid text with
  | none => exact Runs.throw_bind hbad
  | some id =>
    rw [pure_bind]
    exact h id hid

end Rules

section TaskService

/-- `insert into tasks`. -/
def addTask (task : Task Json) (t : Tables Json) : Option (Tables Json) :=
  if h : t.tasks.get task.id = none then some { t with tasks := t.tasks.insertNew task h } else none

theorem addTask_eq_some_iff {task : Task Json} {t t' : Tables Json} :
    addTask task t = some t' ↔
      ∃ h : t.tasks.get task.id = none, t' = { t with tasks := t.tasks.insertNew task h } := by
  unfold addTask
  by_cases h : t.tasks.get task.id = none
  · simp [h, eq_comm]
  · simp [h]

/-- `update tasks` by primary key. -/
def updateTask (id : TaskId) (f : Task Json → Task Json) (hf : ∀ task, (f task).id = task.id)
    (t : Tables Json) : Option (Tables Json) :=
  some { t with tasks := t.tasks.modify id f hf }

/-- `submit_task`. -/
def submitTask (cfg : Settings) (now createdAt : Time) (id : TaskId) (taskType : String)
    (payload : Json) (leaseMinutes retentionHours : Option Int) : Program Json (Task Json) := do
  let task ← checked .service
    (TaskService.queuedRow cfg now createdAt id taskType payload leaseMinutes retentionHours)
  change (addTask task)
  commit .databaseError
  refresh fun t => (t.tasks.get task.id).getD task

theorem submitTask_serves (d : Tables Json) (o : Outside) (cfg : Settings) (now createdAt : Time)
    (id : TaskId) (taskType : String) (payload : Json) (leaseMinutes retentionHours : Option Int) :
    Serves d o (submitTask cfg now createdAt id taskType payload leaseMinutes retentionHours)
      (fun task d' o' => o' = o ∧ ∃ tasks, d' = { d with tasks := tasks } ∧
        TaskService.submitTask cfg now createdAt id d.tasks taskType payload leaseMinutes
          retentionHours = .ok (tasks, task))
      (Untouched d) := by
  unfold submitTask
  refine Runs.checked_bind (fun _ _ => rfl) fun task htask => ?_
  refine Runs.change_bind (Runs.commit_bind rfl fun d' hd' => ?_)
  refine Serves.of_refresh ⟨rfl, ?_⟩
  rw [flushed_one, addTask_eq_some_iff] at hd'
  obtain ⟨hnew, rfl⟩ := hd'
  refine ⟨_, rfl, TaskService.submitTask_ok_iff.2 ⟨task, htask, hnew, ?_⟩⟩
  rw [Table.get_insertNew, if_pos rfl]
  rfl

def taskNotFound (taskId : String) : Raised :=
  .service (.taskServiceError s!"task {taskId} not found")

/-- `get_task`. -/
def getTask (taskId : String) : Program Json (Task Json) := do
  if uuidOf taskId = none then throw (taskNotFound taskId)
  let id ← uuidColumn taskId
  let task ← load .databaseError fun t => t.tasks.get id
  match task with
  | none => throw (taskNotFound taskId)
  | some task => return task

theorem getTask_serves (d : Tables Json) (o : Outside) (taskId : String) :
    Serves d o (getTask taskId)
      (fun task d' o' => d' = d ∧ o' = o ∧
        ∃ id, pgUuid taskId = some id ∧ d.tasks.get id = some task)
      (Untouched d) := by
  unfold getTask
  refine Runs.of_ite (fun _ => Runs.throw_bind rfl) fun _ => ?_
  refine uuidColumn_bind rfl fun id hid => Runs.load_bind rfl ?_
  cases hget : d.tasks.get id with
  | none => exact Runs.of_throw rfl
  | some task => exact Serves.of_pure ⟨rfl, rfl, id, hid, hget⟩

/-- `_RECLAIM_SQL`. -/
def reclaim (taskTypes : List String) (now : Time) (t : Tables Json) : Tables Json × Unit :=
  ({ t with tasks := TaskService.reclaim taskTypes now t.tasks }, ())

/-- `_CLAIM_SQL`. -/
def claim (now : Time) (claimToken : String) (taskTypes : List String) (workerId : String)
    (leaseMinutes : Option Int) (t : Tables Json) : Tables Json × Option (Task Json) :=
  match TaskService.candidate taskTypes t.tasks with
  | none => (t, none)
  | some task =>
    let tasks := t.tasks.modify task.id
      (TaskService.claimRow workerId claimToken now leaseMinutes)
      (TaskService.claimRow_id workerId claimToken now leaseMinutes)
    ({ t with tasks := tasks },
      some (TaskService.claimRow workerId claimToken now leaseMinutes task))

/-- `claim_next`. -/
def claimNext (now : Time) (claimToken : String) (taskTypes : List String) (workerId : String)
    (leaseMinutes : Option Int) : Program Json (Option (Task Json)) := do
  if leaseMinutes.any (· ≤ 0) then
    throw (.service (.taskServiceError "lease_minutes must be greater than zero"))
  execute .databaseError (reclaim taskTypes now)
  let row ← execute .databaseError (claim now claimToken taskTypes workerId leaseMinutes)
  commit .databaseError
  return row

theorem claimNext_serves (d : Tables Json) (o : Outside) (now : Time) (claimToken : String)
    (taskTypes : List String) (workerId : String) (leaseMinutes : Option Int) :
    Serves d o (claimNext now claimToken taskTypes workerId leaseMinutes)
      (fun row d' o' => o' = o ∧ ∃ tasks, d' = { d with tasks := tasks } ∧
        TaskService.claimNext now claimToken d.tasks taskTypes workerId leaseMinutes =
          .ok (tasks, row))
      (Untouched d) := by
  unfold claimNext
  refine Runs.of_ite (fun _ => Runs.throw_bind rfl) fun hlease => ?_
  refine Runs.execute_bind rfl (Runs.execute_bind rfl (Runs.commit_bind rfl fun d' hd' => ?_))
  cases hd'
  refine Serves.of_pure ⟨rfl, ?_⟩
  unfold TaskService.claimNext claim
  rw [if_neg hlease]
  dsimp only [reclaim]
  cases TaskService.candidate taskTypes (TaskService.reclaim taskTypes now d.tasks) with
  | none => exact ⟨_, rfl, rfl⟩
  | some task => exact ⟨_, rfl, rfl⟩

/-- The common body of `complete_task` and `fail_task`. -/
def settleTask (now : Time) (taskId claimToken : String) (outcome : Outcome Json) :
    Program Json (Task Json) := do
  let task ← getTask taskId
  checked .service (TaskService.checkClaim taskId claimToken task)
  change (updateTask task.id (TaskService.settleRow outcome now)
    (TaskService.settleRow_id outcome now))
  commit .databaseError
  refresh fun t => (t.tasks.get task.id).getD task

theorem settleTask_serves (d : Tables Json) (o : Outside) (now : Time) (taskId claimToken : String)
    (outcome : Outcome Json) :
    Serves d o (settleTask now taskId claimToken outcome)
      (fun task d' o' => o' = o ∧ ∃ id tasks, pgUuid taskId = some id ∧
        d' = { d with tasks := tasks } ∧
        TaskService.settleTask now d.tasks id claimToken outcome = .ok (tasks, task))
      (Untouched d) := by
  unfold settleTask
  refine Serves.bind (getTask_serves d o taskId) fun task d' o' hgot => ?_
  obtain ⟨rfl, rfl, id, hid, hget⟩ := hgot
  refine Runs.checked_bind (fun _ _ => rfl) fun _ hcheck => ?_
  refine Runs.change_bind (Runs.commit_bind rfl fun d'' hd'' => ?_)
  rw [flushed_one] at hd''
  cases hd''
  have hkey : task.id = id := Table.key_of_get hget
  have hclaim := TaskService.checkClaim_ok_iff.1 hcheck
  refine Serves.of_refresh ⟨rfl, id, ?_⟩
  subst hkey
  refine ⟨_, hid, rfl, TaskService.settleTask_ok_iff.2 ⟨task, hget, hclaim.1, hclaim.2, ?_⟩⟩
  rw [Table.get_modify_self, hget]
  rfl

/-- `complete_task`. -/
def completeTask (now : Time) (taskId claimToken : String) (result : Json) :
    Program Json (Task Json) :=
  settleTask now taskId claimToken (.complete result)

/-- `fail_task`. -/
def failTask (now : Time) (taskId claimToken error : String) : Program Json (Task Json) :=
  settleTask now taskId claimToken (.fail error)

/-- `list_tasks`. -/
def listTasks (status taskType : Option String) : Program Json (List (Task Json)) :=
  load .databaseError fun t =>
    let named := (status.filter (· ≠ "")).all
    let typed := (taskType.filter (· ≠ "")).all
    ((t.tasks.rows.filter fun task => named (task.status.text = ·) && typed (task.taskType = ·))
      |>.mergeSort fun a b => b.createdAt ≤ a.createdAt).take 200

end TaskService

section WorkerService

/-- `insert into workers`. -/
def addWorker (worker : Worker Json) (t : Tables Json) : Option (Tables Json) :=
  if h : t.workers.get worker.id = none then
    some { t with workers := t.workers.insertNew worker h }
  else none

theorem addWorker_eq_some_iff {worker : Worker Json} {t t' : Tables Json} :
    addWorker worker t = some t' ↔
      ∃ h : t.workers.get worker.id = none,
        t' = { t with workers := t.workers.insertNew worker h } := by
  unfold addWorker
  by_cases h : t.workers.get worker.id = none
  · simp [h, eq_comm]
  · simp [h]

/-- `update workers` by primary key. -/
def updateWorker (id : String) (f : Worker Json → Worker Json)
    (hf : ∀ worker, (f worker).id = worker.id) (t : Tables Json) : Option (Tables Json) :=
  some { t with workers := t.workers.modify id f hf }

/-- `register_worker`. -/
def registerWorker [EmptyCollection Json] (now : Time) (req : Registration Json) :
    Program Json (Worker Json) := do
  let worker ← load .databaseError fun t => t.workers.get req.workerId
  match worker with
  | none => change (addWorker (WorkerService.newWorker req now))
  | some worker =>
    match WorkerService.checkOwner req (some worker) with
    | .error taken =>
      rollback
      throw (.service taken)
    | .ok () =>
      change (updateWorker req.workerId (WorkerService.registerRow req now)
        (WorkerService.registerRow_id req now))
  commit .databaseError
  refresh fun t => (t.workers.get req.workerId).getD (WorkerService.newWorker req now)

theorem registerWorker_serves [EmptyCollection Json] (d : Tables Json) (o : Outside) (now : Time)
    (req : Registration Json) :
    Serves d o (registerWorker now req)
      (fun worker d' o' => o' = o ∧ ∃ workers, d' = { d with workers := workers } ∧
        WorkerService.registerWorker now d.workers req = .ok (workers, worker))
      (Untouched d) := by
  unfold registerWorker
  refine Runs.load_bind rfl ?_
  dsimp only
  cases hget : d.workers.get req.workerId with
  | none =>
    refine Runs.change_bind (Runs.commit_bind rfl fun d' hd' => ?_)
    rw [flushed_one, addWorker_eq_some_iff] at hd'
    obtain ⟨hnew, rfl⟩ := hd'
    refine Serves.of_refresh ⟨rfl, _, rfl, ?_⟩
    refine WorkerService.registerWorker_ok_iff.2 (.inl ⟨hnew, ?_⟩)
    rw [Table.get_insertNew]
    exact congrArg (Prod.mk _) (congrArg (Option.getD · _) (if_pos rfl))
  | some worker =>
    dsimp only
    cases hcheck : WorkerService.checkOwner req (some worker) with
    | error taken => exact Runs.rollback_bind (Runs.throw_bind rfl)
    | ok _ =>
      refine Runs.change_bind (Runs.commit_bind rfl fun d' hd' => ?_)
      rw [flushed_one] at hd'
      cases hd'
      refine Serves.of_refresh ⟨rfl, _, rfl, ?_⟩
      refine WorkerService.registerWorker_ok_iff.2 (.inr ⟨worker, hget, hcheck, ?_⟩)
      rw [Table.get_modify_self, hget]
      rfl

/-- The task id as the uuid columns hold it. -/
def asStored (req : Heartbeat Json) : Heartbeat Json :=
  { req with currentTaskId := req.currentTaskId.bind pgUuid }

/-- The part of `heartbeat` about the task that the worker names. -/
def beatCurrentTask (now : Time) (req : Heartbeat Json) : Program Json Unit :=
  match req.currentTaskId with
  | none => return ()
  | some taskId => do
    let id ← uuidColumn taskId
    let task ← load .databaseError fun t => t.tasks.get id
    checked .service (WorkerService.checkTask req taskId task)
    change (updateTask id (WorkerService.beatTask req now) (WorkerService.beatTask_id req now))

/-- `heartbeat`: the changes of the worker are pending when the task is looked up. -/
def heartbeat (now : Time) (req : Heartbeat Json) : Program Json (Option (Worker Json)) := do
  let worker ← load .databaseError fun t => t.workers.get req.workerId
  checked .service (WorkerService.checkWorker req worker)
  change (updateWorker req.workerId (WorkerService.beatWorker (asStored req) now)
    (WorkerService.beatWorker_id (asStored req) now))
  beatCurrentTask now req
  commit .databaseError
  refresh fun t => t.workers.get req.workerId

/-- The task that a heartbeat finds by the text of its id. -/
def taskOf (tasks : TaskTable Json) (taskId : String) : Option (Task Json) :=
  (pgUuid taskId).bind tasks.get

/-- What an accepted heartbeat leaves. -/
def beaten (now : Time) (req : Heartbeat Json) (d : Tables Json) : Tables Json :=
  { d with
    tasks := WorkerService.beatTasks (asStored req) now d.tasks
    workers := d.workers.modify req.workerId (WorkerService.beatWorker (asStored req) now)
      (WorkerService.beatWorker_id (asStored req) now) }

theorem heartbeat_serves (d : Tables Json) (o : Outside) (now : Time) (req : Heartbeat Json) :
    Serves d o (heartbeat now req)
      (fun _ d' o' => o' = o ∧ d' = beaten now req d ∧
        WorkerService.checkLoads req (d.workers.get req.workerId) (taskOf d.tasks) = .ok ())
      (Untouched d) := by
  unfold heartbeat beatCurrentTask
  refine Runs.load_bind rfl (Runs.checked_bind (fun _ _ => rfl) fun _ hworker => ?_)
  refine Runs.change_bind ?_
  cases htask : req.currentTaskId with
  | none =>
    rw [pure_bind]
    refine Runs.commit_bind rfl fun d' hd' => ?_
    rw [flushed_one] at hd'
    cases hd'
    refine Serves.of_refresh ⟨rfl, ?_, ?_⟩
    · simp only [beaten, WorkerService.beatTasks, asStored, htask, Option.bind_none]
    · exact WorkerService.checkLoads_ok_iff.2 ⟨hworker, fun taskId h => by simp [htask] at h⟩
  | some taskId =>
    rw [bind_assoc]
    refine uuidColumn_bind rfl fun id hid => ?_
    rw [bind_assoc]
    refine Runs.load_bind rfl ?_
    rw [bind_assoc]
    refine Runs.checked_bind (fun _ _ => rfl) fun _ hclaim => ?_
    refine Runs.change_bind (Runs.commit_bind rfl fun d' hd' => ?_)
    cases hd'
    refine Serves.of_refresh ⟨rfl, ?_, ?_⟩
    · simp only [beaten, WorkerService.beatTasks, asStored, htask, Option.bind_some, hid]
      rfl
    · refine WorkerService.checkLoads_ok_iff.2 ⟨hworker, fun x h => ?_⟩
      rw [htask, Option.some.injEq] at h
      subst h
      rw [taskOf, hid, Option.bind_some]
      exact hclaim

/-- `list_workers`. -/
def listWorkers : Program Json (List (Worker Json)) :=
  load .databaseError fun t =>
    t.workers.rows.mergeSort fun a b => b.lastHeartbeatAt ≤ a.lastHeartbeatAt

end WorkerService

section ArtifactService

/-- `insert into artifacts`. -/
def addArtifact (row : Artifact) (t : Tables Json) : Option (Tables Json) :=
  if h : t.artifacts.get row.id = none then
    some { t with artifacts := t.artifacts.insertNew row h }
  else none

theorem addArtifact_eq_some_iff {row : Artifact} {t t' : Tables Json} :
    addArtifact row t = some t' ↔
      ∃ h : t.artifacts.get row.id = none,
        t' = { t with artifacts := t.artifacts.insertNew row h } := by
  unfold addArtifact
  by_cases h : t.artifacts.get row.id = none
  · simp [h, eq_comm]
  · simp [h]

/-- `delete from artifacts` by primary key. -/
def removeArtifact (id : String) (t : Tables Json) : Option (Tables Json) :=
  some { t with artifacts := t.artifacts.filter fun row => row.id ≠ id }

/-- `upload_artifact`: the object is in the storage before the row is added. -/
def uploadArtifact (retentionHours : Int) (now createdAt : Time) (id : String) (sizeBytes : ℕ)
    (contentType : String) (attempt : UploadAttempt) : Program Json Artifact := do
  let row := ArtifactService.newArtifact retentionHours now createdAt id contentType sizeBytes
  let o ← outside
  setOutside { o with
    objects := if attempt.stored then insert row.storagePath o.objects else o.objects }
  if attempt.answer ≠ .ok then throw (.artifact .storageError)
  change (addArtifact row)
  commit .databaseError
  refresh fun t => (t.artifacts.get row.id).getD row

theorem uploadArtifact_serves (d : Tables Json) (o : Outside) (retentionHours : Int)
    (now createdAt : Time) (id : String) (sizeBytes : ℕ) (contentType : String)
    (attempt : UploadAttempt) :
    Serves d o (uploadArtifact retentionHours now createdAt id sizeBytes contentType attempt)
      (fun row d' o' => ∃ store, d' = { d with artifacts := store.artifacts } ∧
        o' = { o with objects := store.objects } ∧
        ArtifactService.uploadArtifact retentionHours now createdAt id ⟨d.artifacts, o.objects⟩
          sizeBytes contentType attempt true = (store, .ok row))
      (Untouched d) := by
  unfold uploadArtifact
  refine Runs.outside_bind (Runs.setOutside_bind ?_)
  refine Runs.of_ite (fun _ => Runs.throw_bind rfl) fun hanswer => ?_
  refine Runs.change_bind (Runs.commit_bind rfl fun d' hd' => ?_)
  rw [flushed_one, addArtifact_eq_some_iff] at hd'
  obtain ⟨hnew, rfl⟩ := hd'
  refine Serves.of_refresh ⟨⟨_, _⟩, rfl, rfl, ?_⟩
  unfold ArtifactService.uploadArtifact
  rw [if_neg hanswer, if_neg (by simp), dif_pos hnew, Table.get_insertNew, if_pos rfl]
  rfl

/-- `get_artifact`. -/
def getArtifact (artifactId : String) : Program Json Artifact := do
  if uuidOf artifactId = none then throw (.artifact (ArtifactService.notFound artifactId))
  let id ← uuidColumn artifactId
  let artifact ← load .databaseError fun t => t.artifacts.get id
  match artifact with
  | none => throw (.artifact (ArtifactService.notFound artifactId))
  | some row => return row

theorem getArtifact_serves (d : Tables Json) (o : Outside) (artifactId : String) :
    Serves d o (getArtifact artifactId)
      (fun row d' o' => d' = d ∧ o' = o ∧
        ArtifactService.getArtifact d.artifacts artifactId = .ok row)
      (Untouched d) := by
  unfold getArtifact
  refine Runs.of_ite (fun _ => Runs.throw_bind rfl) fun hid => ?_
  refine uuidColumn_bind rfl fun id hpg => Runs.load_bind rfl ?_
  cases hget : d.artifacts.get id with
  | none => exact Runs.of_throw rfl
  | some row =>
    refine Serves.of_pure ⟨rfl, rfl, ?_⟩
    simp only [ArtifactService.getArtifact, ArtifactService.loadArtifact, hid, hpg, hget]
    rfl

/-- `db.delete(artifact)`, where there is one. -/
def deleteRow (artifact : Option Artifact) : Program Json Unit :=
  match artifact with
  | none => return ()
  | some row => change (removeArtifact row.id)

/-- `delete_artifact_files`: the row goes after the last request to the storage. -/
def deleteArtifactFiles (artifactId : String) (attempts : String → DeleteAttempt) :
    Program Json Unit := do
  if uuidOf artifactId = none then throw (.artifact (ArtifactService.notFound artifactId))
  let id ← uuidColumn artifactId
  let artifact ← load .databaseError fun t => t.artifacts.get id
  let o ← outside
  let deleted := ArtifactService.deleteObjects attempts o.objects
    (ArtifactService.deletionPaths artifactId artifact)
  setOutside { o with objects := deleted.1 }
  checked .artifact deleted.2
  deleteRow artifact
  commit .databaseError

theorem deleteArtifactFiles_serves (d : Tables Json) (o : Outside) (artifactId : String)
    (attempts : String → DeleteAttempt) :
    Serves d o (deleteArtifactFiles artifactId attempts)
      (fun _ d' o' => ∃ store, d' = { d with artifacts := store.artifacts } ∧
        o' = { o with objects := store.objects } ∧
        ArtifactService.deleteArtifactFiles ⟨d.artifacts, o.objects⟩ artifactId attempts true =
          (store, .ok ()))
      (Untouched d) := by
  unfold deleteArtifactFiles deleteRow
  refine Runs.of_ite (fun _ => Runs.throw_bind rfl) fun hid => ?_
  refine uuidColumn_bind rfl fun id hpg => Runs.load_bind rfl ?_
  refine Runs.outside_bind ?_
  have hload : ArtifactService.loadArtifact d.artifacts artifactId = .ok (d.artifacts.get id) := by
    simp only [ArtifactService.loadArtifact, hpg]
  generalize d.artifacts.get id = artifact at hload ⊢
  dsimp only
  rcases hloop : ArtifactService.deleteObjects attempts o.objects
    (ArtifactService.deletionPaths artifactId artifact) with ⟨objects, result⟩
  refine Runs.setOutside_bind (Runs.checked_bind (fun _ _ => rfl) fun _ hresult => ?_)
  have hpure : ArtifactService.deleteArtifactFiles ⟨d.artifacts, o.objects⟩ artifactId attempts
      true = (⟨d.artifacts.filter fun row => artifact.all fun gone => row.id ≠ gone.id, objects⟩,
        .ok ()) := by
    rw [ArtifactService.deleteArtifactFiles, if_neg hid, hload]
    dsimp only at hresult ⊢
    rw [hloop, hresult]
    simp
  cases artifact with
  | none =>
    rw [pure_bind]
    refine Runs.last (Runs.commit_bind rfl fun d' hd' => Serves.of_pure ?_)
    cases hd'
    have hkept : d.artifacts.filter (fun row => (none : Option Artifact).all
        fun gone => row.id ≠ gone.id) = d.artifacts := Table.filter_eq_self fun _ _ => rfl
    rw [hkept] at hpure
    exact ⟨_, rfl, rfl, hpure⟩
  | some row =>
    refine Runs.change_bind (Runs.last (Runs.commit_bind rfl fun d' hd' => ?_))
    rw [flushed_one] at hd'
    cases hd'
    exact Serves.of_pure ⟨_, rfl, rfl, hpure⟩

end ArtifactService

section WorkerKeyService
variable (sha256 : String → String)

/-- `insert into worker_keys`. -/
def addKey (key : WorkerKey) (t : Tables Json) : Option (Tables Json) :=
  match WorkerKeyService.insertKey t.keys key with
  | .error _ => none
  | .ok keys => some { t with keys := keys }

/-- `create_key`: the new row and the raw key. -/
def createKey (now : Time) (id token userId name : String) :
    Program Json (WorkerKey × String) := do
  let userId ← uuidColumn userId
  let active ← load .databaseError fun t => WorkerKeyService.activeKeys t.keys userId
  if WorkerKeyService.maxActiveKeys ≤ active then
    throw (.workerKey (.workerKeyLimit
      s!"At most {WorkerKeyService.maxActiveKeys} active worker keys; revoke one first"))
  let key := WorkerKeyService.newKey sha256 now id userId name token
  change (addKey key)
  commit .databaseError
  let key ← refresh fun t => (t.keys.get key.id).getD key
  return (key, WorkerKeyService.keyPrefix ++ token)

theorem addKey_eq_some_iff {key : WorkerKey} {t t' : Tables Json} :
    addKey key t = some t' ↔
      ∃ keys, WorkerKeyService.insertKey t.keys key = .ok keys ∧ t' = { t with keys := keys } := by
  unfold addKey
  cases WorkerKeyService.insertKey t.keys key with
  | error e => simp
  | ok keys => simp [eq_comm]

theorem createKey_serves (d : Tables Json) (o : Outside) (now : Time)
    (id token userId name : String) :
    Serves d o (createKey sha256 now id token userId name)
      (fun created d' o' => o' = o ∧ ∃ owner keys, pgUuid userId = some owner ∧
        d' = { d with keys := keys } ∧
        WorkerKeyService.createKey sha256 now id token d.keys owner name = .ok (keys, created))
      (Untouched d) := by
  unfold createKey
  refine uuidColumn_bind rfl fun owner howner => Runs.load_bind rfl ?_
  refine Runs.of_ite (fun _ => Runs.throw_bind rfl) fun hlimit => ?_
  refine Runs.change_bind (Runs.commit_bind rfl fun d' hd' => ?_)
  rw [flushed_one, addKey_eq_some_iff] at hd'
  obtain ⟨keys, hkeys, rfl⟩ := hd'
  refine Runs.refresh_bind (Serves.of_pure ⟨rfl, owner, keys, howner, rfl, ?_⟩)
  obtain ⟨hnew, hinserted⟩ := WorkerKeyService.insertKey_ok hkeys
  have hback : keys.get (WorkerKeyService.newKey sha256 now id owner name token).id =
      some (WorkerKeyService.newKey sha256 now id owner name token) := by
    rw [hinserted, Table.get_insertNew, if_pos rfl]
  rw [WorkerKeyService.createKey, if_neg hlimit, hkeys, hback]
  rfl

/-- `list_keys`. -/
def listKeys (userId : String) : Program Json (List WorkerKey) := do
  let userId ← uuidColumn userId
  load .databaseError fun t =>
    (t.keys.rows.filter fun key => key.userId = userId).mergeSort
      fun a b => b.createdAt ≤ a.createdAt

/-- `update worker_keys` by primary key. -/
def updateKey (id : String) (f : WorkerKey → WorkerKey) (hf : ∀ key, (f key).id = key.id)
    (t : Tables Json) : Option (Tables Json) :=
  some { t with keys := t.keys.modify id f hf }

theorem revokeRow_id (now : Time) (key : WorkerKey) :
    (WorkerKeyService.revokeRow now key).id = key.id := rfl

def keyNotFound : Raised := .workerKey (.workerKeyNotFound "Worker key not found")

/-- `revoke_key`. -/
def revokeKey (now : Time) (userId keyId : String) : Program Json WorkerKey := do
  let key ← load .databaseError fun t => t.keys.get keyId
  match key with
  | none => throw keyNotFound
  | some key =>
    if key.userId ≠ userId then throw keyNotFound
    else if key.revokedAt = none then
      change (updateKey keyId (WorkerKeyService.revokeRow now) (revokeRow_id now))
      commit .databaseError
      refresh fun t => (t.keys.get keyId).getD key
    else return key

theorem revokeKey_serves (d : Tables Json) (o : Outside) (now : Time) (userId keyId : String) :
    Serves d o (revokeKey now userId keyId)
      (fun key d' o' => o' = o ∧ ∃ keys, d' = { d with keys := keys } ∧
        WorkerKeyService.revokeKey now d.keys userId keyId = .ok (keys, key))
      (Untouched d) := by
  unfold revokeKey WorkerKeyService.revokeKey
  refine Runs.load_bind rfl ?_
  dsimp only
  cases hget : d.keys.get keyId with
  | none => exact Runs.of_throw rfl
  | some key =>
    refine Runs.of_ite (fun _ => Runs.of_throw rfl) fun huser => ?_
    refine Runs.of_ite (fun hrevoked => ?_) fun hrevoked => ?_
    · refine Runs.change_bind (Runs.commit_bind rfl fun d' hd' => ?_)
      rw [flushed_one] at hd'
      cases hd'
      refine Serves.of_refresh ⟨rfl, _, rfl, ?_⟩
      dsimp only
      rw [if_neg huser, if_pos hrevoked, Table.get_modify_self, hget]
      rfl
    · refine Serves.of_pure ⟨rfl, d.keys, rfl, ?_⟩
      dsimp only
      rw [if_neg huser, if_neg hrevoked]

/-- `_TOUCH`. -/
def touch (dbNow : Time) (keyId : String) (t : Tables Json) : Tables Json × Unit :=
  ({ t with keys := WorkerKeyService.touch dbNow t.keys keyId }, ())

/-- `find_active_key`. -/
def findActiveKey (dbNow : Time) (profiles : WorkerKeyService.Profiles) (rawKey : String) :
    Program Json (Option KeyOwner) := do
  let row ← load .databaseError fun t =>
    WorkerKeyService.matchKey profiles t.keys (sha256 rawKey)
  match row with
  | none =>
    rollback
    return none
  | some row =>
    execute .databaseError (touch dbNow row.id)
    commit .databaseError
    return some row.owner

theorem findActiveKey_serves (d : Tables Json) (o : Outside) (dbNow : Time)
    (profiles : WorkerKeyService.Profiles) (rawKey : String) :
    Serves d o (findActiveKey sha256 dbNow profiles rawKey)
      (fun owner d' o' => o' = o ∧ ∃ keys, d' = { d with keys := keys } ∧
        WorkerKeyService.findActiveKey sha256 dbNow profiles d.keys rawKey = (keys, owner))
      (fun e d' o' => e = .databaseError ∧ d' = d ∧ o' = o) := by
  unfold findActiveKey WorkerKeyService.findActiveKey
  refine Runs.load_bind ⟨rfl, rfl, rfl⟩ ?_
  cases WorkerKeyService.matchKey profiles d.keys (sha256 rawKey) with
  | none => exact Runs.rollback_bind (Serves.of_pure ⟨rfl, d.keys, rfl, rfl⟩)
  | some row =>
    refine Runs.execute_bind ⟨rfl, rfl, rfl⟩ (Runs.commit_bind ⟨rfl, rfl, rfl⟩ fun d' hd' => ?_)
    cases hd'
    exact Serves.of_pure ⟨rfl, _, rfl, rfl⟩

end WorkerKeyService

section Reading
variable {α : Type} (d : Tables Json) (o : Outside)

/-- A single query leaves everything as it was. -/
theorem load_serves (query : Tables Json → α) :
    Serves d o (load Raised.databaseError query) (fun _ d' o' => d' = d ∧ o' = o)
      (Untouched d) :=
  Runs.last (Runs.load_bind rfl (Serves.of_pure ⟨rfl, rfl⟩))

theorem listKeys_serves (userId : String) :
    Serves d o (listKeys userId) (fun _ d' o' => d' = d ∧ o' = o) (Untouched d) :=
  uuidColumn_bind rfl fun _ _ => load_serves d o _

end Reading

end TaskQueue.SessionServices

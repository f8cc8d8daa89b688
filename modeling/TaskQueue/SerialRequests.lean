import TaskQueue.StepRuns
import TaskQueue.WorkerService
import Mathlib.Data.List.Sort

/-!
# Requests served one at a time

The API and the cleanup jobs as one state machine on the two queue tables. A request
reads the clock at `now` and is over at `later`; the clock never goes back.
-/

namespace TaskQueue.SerialRequests
open KeyedTables TaskService WorkerService StepRuns

variable {Json : Type}

structure Db (Json : Type) where
  tasks : TaskTable Json
  workers : WorkerTable Json

/-- The requests that touch the queue tables. `cleanupTasks` and `cleanupWorkers` are
the scheduled jobs of the migrations. `rescan` changes nothing but the order in which
later scans meet the task rows, which the database may choose freely. -/
inductive Request (Json : Type)
  | submitTask (id : TaskId) (taskType : String) (payload : Json)
      (leaseMinutes retentionHours : Option Int)
  | claimNext (claimToken : String) (taskTypes : List String) (workerId : String)
      (leaseMinutes : Option Int)
  | completeTask (taskId : TaskId) (claimToken : String) (result : Json)
  | failTask (taskId : TaskId) (claimToken : String) (error : String)
  | registerWorker (req : Registration Json)
  | heartbeat (req : Heartbeat Json)
  | cleanupTasks
  | cleanupWorkers
  | rescan (rank : TaskId → ℕ)

inductive Response (Json : Type)
  | task (row : Task Json)
  | claimed (row : Option (Task Json))
  | accepted
  | rejected (error : ServiceError)

/-- `delete from tasks where expires_at < now()`, with the foreign key's
`on delete set null` on the workers. -/
def cleanupTasks (now : Time) (db : Db Json) : Db Json where
  tasks := db.tasks.filter fun task => !decide (task.expiresAt < now)
  workers := db.workers.mapRows
    (fun worker =>
      { worker with
        currentTaskId := worker.currentTaskId.filter fun taskId =>
          !(db.tasks.get taskId).any fun task => decide (task.expiresAt < now) })
    fun _ => rfl

/-- `delete from workers where last_heartbeat_at < now() - interval '30 days'`. -/
def cleanupWorkers (now : Time) (db : Db Json) : Db Json :=
  { db with workers := db.workers.filter fun worker =>
      !decide (worker.lastHeartbeatAt < now - days 30) }

def rescan (rank : TaskId → ℕ) (tasks : TaskTable Json) : TaskTable Json :=
  tasks.reorder (tasks.rows.insertionSort fun a b => rank a.id ≤ rank b.id)
    (List.perm_insertionSort _ _).symm

/-- A request with the clock readings at its start and at its end. -/
structure Timed (Json : Type) where
  now : Time
  later : Time
  request : Request Json

structure Served (Json : Type) where
  db : Db Json
  clock : Time

variable [EmptyCollection Json] (cfg : Settings)

/-- A refused request leaves the tables as they were. -/
def handle (db : Db Json) (r : Timed Json) : Db Json × Response Json :=
  match r.request with
  | .submitTask id taskType payload leaseMinutes retentionHours =>
    match submitTask cfg r.now r.later id db.tasks taskType payload leaseMinutes
        retentionHours with
    | .ok (tasks, task) => ({ db with tasks := tasks }, .task task)
    | .error e => (db, .rejected e)
  | .claimNext claimToken taskTypes workerId leaseMinutes =>
    match claimNext r.now claimToken db.tasks taskTypes workerId leaseMinutes with
    | .ok (tasks, row) => ({ db with tasks := tasks }, .claimed row)
    | .error e => (db, .rejected e)
  | .completeTask taskId claimToken result =>
    match completeTask r.now db.tasks taskId claimToken result with
    | .ok (tasks, task) => ({ db with tasks := tasks }, .task task)
    | .error e => (db, .rejected e)
  | .failTask taskId claimToken error =>
    match failTask r.now db.tasks taskId claimToken error with
    | .ok (tasks, task) => ({ db with tasks := tasks }, .task task)
    | .error e => (db, .rejected e)
  | .registerWorker req =>
    match registerWorker r.now db.workers req with
    | .ok (workers, _) => ({ db with workers := workers }, .accepted)
    | .error e => (db, .rejected e)
  | .heartbeat req =>
    match heartbeat r.now db.tasks db.workers req with
    | .ok (tasks, workers) => (⟨tasks, workers⟩, .accepted)
    | .error e => (db, .rejected e)
  | .cleanupTasks => (cleanupTasks r.now db, .accepted)
  | .cleanupWorkers => (cleanupWorkers r.now db, .accepted)
  | .rescan rank => ({ db with tasks := rescan rank db.tasks }, .accepted)

/-- One request, provided the clock does not go back. -/
def step (s : Served Json) (r : Timed Json) : Option (Served Json) :=
  if s.clock ≤ r.now ∧ r.now ≤ r.later then some ⟨(handle cfg s.db r).1, r.later⟩ else none

def emptyDb : Db Json := ⟨Table.empty, Table.empty⟩

/-- An empty database at a given time. -/
def start (clock : Time) : Served Json := ⟨emptyDb, clock⟩

theorem step_inv {s t : Served Json} {r : Timed Json} (h : step cfg s r = some t) :
    s.clock ≤ r.now ∧ r.now ≤ r.later ∧ t = ⟨(handle cfg s.db r).1, r.later⟩ := by
  unfold step at h
  split_ifs at h with hc
  exact ⟨hc.1, hc.2, (Option.some.inj h).symm⟩

end TaskQueue.SerialRequests

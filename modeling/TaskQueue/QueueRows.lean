import TaskQueue.KeyedTables

/-!
# The rows of the queue database

`Task` and `Worker` have the columns of `app/models.py`. JSON documents (payloads,
results, capabilities, details) are opaque to the queue and stay a type variable.
A task id is a uuid, written by its canonical text; a string that denotes no uuid is
the id of no row. Timestamps count microseconds.
-/

namespace TaskQueue
open KeyedTables

abbrev Time := Int
abbrev TaskId := String

def minutes (n : Int) : Time := n * 60000000
def hours (n : Int) : Time := n * 3600000000
def days (n : Int) : Time := n * 86400000000

/-- The check constraint on `tasks.status`. -/
inductive TaskStatus
  | queued | claimed | done | failed
  deriving DecidableEq, Repr

def TaskStatus.text : TaskStatus → String
  | .queued => "queued"
  | .claimed => "claimed"
  | .done => "done"
  | .failed => "failed"

/-- The check constraint on `workers.state`. -/
inductive WorkerState
  | idle | busy
  deriving DecidableEq, Repr

structure Task (Json : Type) where
  id : TaskId
  taskType : String
  payload : Json
  leaseMinutes : Int
  status : TaskStatus
  result : Option Json
  error : Option String
  claimedBy : Option String
  claimToken : Option String
  createdAt : Time
  claimedAt : Option Time
  leaseExpiresAt : Option Time
  completedAt : Option Time
  progressStage : Option String
  progressMessage : Option String
  progressCurrent : Option Int
  progressTotal : Option Int
  progressUpdatedAt : Option Time
  expiresAt : Time
  deriving DecidableEq

structure Worker (Json : Type) where
  id : String
  name : String
  sessionId : String
  capabilities : Json
  details : Json
  version : Option String
  state : WorkerState
  currentTaskId : Option TaskId
  registeredAt : Time
  sessionStartedAt : Time
  lastHeartbeatAt : Time
  ownerUserId : Option String
  deriving DecidableEq

abbrev TaskTable (Json : Type) := Table TaskId (Task Json) Task.id
abbrev WorkerTable (Json : Type) := Table String (Worker Json) Worker.id

/-- The exceptions of the two services, with their messages. -/
inductive ServiceError
  | taskServiceError (message : String)
  | workerServiceError (message : String)
  | workerIdTaken (message : String)
  | integrityError
  deriving DecidableEq, Repr

/-- The settings the task service reads. -/
structure Settings where
  defaultLeaseMinutes : Int := 60
  defaultRetentionHours : Int := 48

end TaskQueue

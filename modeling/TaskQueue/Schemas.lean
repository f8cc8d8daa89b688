import TaskQueue.WorkerService

/-!
# The request models

`app/schemas.py` and the query of the claim route. What arrives is either a value of the
right shape, which the field constraints may still refuse, or it has no such shape. The
text that `json.dumps` gives for a document is an argument.
-/

namespace TaskQueue.Schemas

variable {Json : Type}

/-- `Field(min_length=…, max_length=…)`. -/
def lengthIn (least most : ℕ) (s : String) : Bool :=
  least ≤ s.toList.length && s.toList.length ≤ most

/-- `Field(gt=0)` of an optional number. -/
def positive (n : Option Int) : Bool := n.all (0 < ·)

structure TaskSubmitRequest (Json : Type) where
  taskType : String
  payload : Json
  leaseMinutes : Option Int := none
  retentionHours : Option Int := none

def TaskSubmitRequest.valid (req : TaskSubmitRequest Json) : Bool :=
  positive req.leaseMinutes && positive req.retentionHours

structure TaskCompleteRequest (Json : Type) where
  claimToken : String
  result : Json

structure TaskFailRequest where
  claimToken : String
  error : String

structure WorkerRegisterRequest (Json : Type) where
  workerId : String
  name : String
  sessionId : String
  capabilities : Json
  version : Option String := none

def WorkerRegisterRequest.valid (req : WorkerRegisterRequest Json) : Bool :=
  lengthIn 1 200 req.workerId && lengthIn 1 200 req.name && lengthIn 1 200 req.sessionId &&
    req.version.all (lengthIn 0 100)

structure WorkerHeartbeatRequest (Json : Type) where
  sessionId : String
  state : WorkerState
  currentTaskId : Option String := none
  claimToken : Option String := none
  progressStage : Option String := none
  progressMessage : Option String := none
  progressCurrent : Option Int := none
  progressTotal : Option Int := none
  details : Option Json := none

/-- `dumps` is `json.dumps`. -/
def WorkerHeartbeatRequest.valid (dumps : Json → String) (req : WorkerHeartbeatRequest Json) :
    Bool :=
  lengthIn 1 200 req.sessionId && req.progressStage.all (lengthIn 0 100) &&
    req.progressMessage.all (lengthIn 0 500) && req.progressCurrent.all (0 ≤ ·) &&
    positive req.progressTotal && req.details.all fun details => lengthIn 0 4096 (dumps details)

structure WorkerKeyCreateRequest where
  name : String

def WorkerKeyCreateRequest.valid (req : WorkerKeyCreateRequest) : Bool := lengthIn 1 100 req.name

/-- The query parameters of `GET /tasks/next`. -/
structure ClaimQuery where
  taskTypes : String
  workerId : Option String := none
  leaseMinutes : Option Int := none

def ClaimQuery.valid (query : ClaimQuery) : Bool := positive query.leaseMinutes

/-- The file of `POST /artifacts`. -/
structure UploadFile where
  sizeBytes : ℕ
  contentType : Option String

/-- What a request brings for a model: a body that cannot be read at all, a value without
the shape of the model, or a value of the model. -/
inductive Input (α : Type)
  | unreadable
  | mistyped
  | given (value : α)

end TaskQueue.Schemas

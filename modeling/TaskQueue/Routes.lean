import TaskQueue.SessionServices
import TaskQueue.Schemas

/-!
# The routes

`app/api/routes.py`: each route with its guard and its models, on the one session that
guard and route share. The request and the library functions that the API applies are
arguments, and so is what it draws and finds outside the database.
-/

namespace TaskQueue.Routes
open KeyedTables Sessions Uuid PythonStrings KeyConfiguration Authentication Schemas
open SessionServices
open WorkerKeyService (Profiles KeyOwner WorkerKey)
open ArtifactService (Artifact UploadAttempt DeleteAttempt)

variable {Json : Type}

/-- A deployment: its settings and the library functions that it applies. -/
structure Api (Json : Type) where
  sha256 : String → String
  casefold : String → String
  dumps : Json → String
  auth : AuthSettings
  queue : Settings := {}
  artifactRetentionHours : Int := 168

/-- What a request finds and draws: the readings of the clocks, the new uuids and tokens,
the answers of the identity service, of the storage and of the database. -/
structure Surroundings where
  profiles : Profiles
  identity : String → IdentityReply
  cacheNow : Time
  dbNow : Time
  now : Time
  createdAt : Time
  newId : String
  newToken : String
  newSuffix : String
  upload : UploadAttempt
  deletions : String → DeleteAttempt
  refusals : List Bool

inductive Route (Json : Type)
  | registerWorker (req : Input (WorkerRegisterRequest Json))
  | workerHeartbeat (workerId : String) (req : Input (WorkerHeartbeatRequest Json))
  | listWorkers
  | submitTask (req : Input (TaskSubmitRequest Json))
  | listTasks (status taskType : Option String)
  | claimNext (query : Input ClaimQuery)
  | getTask (taskId : String)
  | completeTask (taskId : String) (req : Input (TaskCompleteRequest Json))
  | failTask (taskId : String) (req : Input TaskFailRequest)
  | uploadArtifact (file : Input UploadFile)
  | getArtifact (artifactId : String)
  | deleteArtifact (artifactId : String)
  | listWorkerKeys
  | createWorkerKey (req : Input WorkerKeyCreateRequest)
  | revokeWorkerKey (keyId : Input String)

structure Request (Json : Type) where
  apiKey : Option String
  credentials : Option Credentials
  route : Route Json

/-- What a route returns, before the rows are shown as JSON. -/
inductive Reply (Json : Type)
  | worker (row : Option (Worker Json))
  | workers (rows : List (Worker Json))
  | task (row : Task Json)
  | tasks (rows : List (Task Json))
  | claimed (row : Option (Task Json))
  | artifact (row : Artifact)
  | deleted
  | workerKeys (rows : List WorkerKey)
  | createdKey (row : WorkerKey) (rawKey : String)
  | workerKey (row : WorkerKey)

/-- The status of a response that a route returns. -/
def Reply.status : Reply Json → ℕ
  | .claimed none => 204
  | .deleted => 204
  | .createdKey _ _ => 201
  | _ => 200

/-- The status that an exception ends in. -/
def raisedStatus : Raised → ℕ
  | .http error => error.status
  | _ => 500

def status : Except Raised (Reply Json) → ℕ
  | .ok reply => reply.status
  | .error e => raisedStatus e

section Guards
variable (api : Api Json) (env : Surroundings)

/-- `except SQLAlchemyError`. -/
def unavailable (error : HttpError) : Raised → Raised
  | .databaseError => .http error
  | e => e

/-- `_user_worker_key`. -/
def userWorkerKey (rawKey : String) : Program Json (Option KeyOwner) := do
  let digest := api.sha256 rawKey
  let o ← outside
  match cacheHit o.cache env.cacheNow digest with
  | some owner => return some owner
  | none =>
    setOutside { o with cache := dropEntry o.cache digest }
    let owner ← rethrow (unavailable keyCheckDown)
      (findActiveKey api.sha256 env.dbNow env.profiles rawKey)
    match owner with
    | none => return none
    | some owner =>
      let o ← outside
      setOutside { o with cache := storeEntry o.cache digest owner env.cacheNow }
      return some owner

/-- `require_worker`. -/
def requireWorker (apiKey : Option String) : Program Json AuthUser :=
  match apiKey.filter (· ≠ "") with
  | none => checked .http
      (requireMachineKey api.sha256 api.auth "worker" apiKey (workerKeyHashes api.auth))
  | some key =>
    match nameForKey api.sha256 key (workerKeyHashes api.auth) with
    | some name => return machineUser "worker" name
    | none => do
      let owner ← userWorkerKey api env key
      match owner with
      | none => throw (.http invalidKey)
      | some owner => return keyUser owner

/-- The tables and the outside are left as a guard leaves the key state. -/
def Leaves {α : Type} (d : Tables Json) (o : Outside) (left : KeyState × Except HttpError α)
    (r : Except HttpError α) (d' : Tables Json) (o' : Outside) : Prop :=
  ∃ k, left = (k, r) ∧ d' = { d with keys := k.keys } ∧ o' = { o with cache := k.cache }

theorem userWorkerKey_serves (d : Tables Json) (o : Outside) (rawKey : String) :
    let left (answers : Bool) := Authentication.userWorkerKey api.sha256 env.profiles env.cacheNow
      env.dbNow answers ⟨o.cache, d.keys⟩ rawKey
    Serves d o (userWorkerKey api env rawKey)
      (fun owner d' o' => ∃ answers, Leaves d o (left answers) (.ok owner) d' o')
      (fun e d' o' => ∃ answers error, e = .http error ∧
        Leaves d o (left answers) (.error error) d' o') := by
  unfold userWorkerKey Authentication.userWorkerKey
  refine Runs.outside_bind ?_
  dsimp only
  cases hcached : cacheHit o.cache env.cacheNow (api.sha256 rawKey) with
  | some owner => exact Serves.of_pure ⟨true, _, rfl, rfl, rfl⟩
  | none =>
    refine Runs.setOutside_bind (Serves.bind (Serves.of_rethrow ((findActiveKey_serves _ _ _ _ _
      _).mono (fun _ _ _ h => h) ?_)) ?_)
    · intro e d' o' h
      obtain ⟨rfl, rfl, rfl⟩ := h
      exact ⟨false, keyCheckDown, rfl, _, rfl, rfl, rfl⟩
    · intro found d' o' h
      obtain ⟨rfl, keys, rfl, hfound⟩ := h
      dsimp only
      rw [hfound]
      cases found with
      | none => exact Serves.of_pure ⟨true, _, rfl, rfl, rfl⟩
      | some owner =>
        refine Runs.outside_bind (Runs.setOutside_bind ?_)
        exact Serves.of_pure ⟨true, _, rfl, rfl, rfl⟩

/-- The guard on a session does what it does on the key state alone. -/
theorem requireWorker_serves (d : Tables Json) (o : Outside) (apiKey : Option String) :
    let left (answers : Bool) := Authentication.requireWorker api.sha256 api.auth env.profiles
      env.cacheNow env.dbNow answers ⟨o.cache, d.keys⟩ apiKey
    Serves d o (requireWorker api env apiKey)
      (fun user d' o' => ∃ answers, Leaves d o (left answers) (.ok user) d' o')
      (fun e d' o' => ∃ answers error, e = .http error ∧
        Leaves d o (left answers) (.error error) d' o') := by
  unfold requireWorker Authentication.requireWorker
  cases apiKey.filter (· ≠ "") with
  | none =>
    refine Runs.last (Runs.checked_bind ?_ ?_)
    · intro error herror
      exact ⟨true, error, rfl, _, by rw [herror], rfl, rfl⟩
    · intro user huser
      exact Serves.of_pure ⟨true, _, by rw [huser], rfl, rfl⟩
  | some key =>
    dsimp only
    cases nameForKey api.sha256 key (workerKeyHashes api.auth) with
    | some name => exact Serves.of_pure ⟨true, _, rfl, rfl, rfl⟩
    | none =>
      refine Serves.bind ((userWorkerKey_serves api env d o key).mono (fun _ _ _ h => h) ?_) ?_
      · intro e d' o' h
        obtain ⟨answers, error, rfl, k, hk, hd, ho⟩ := h
        dsimp only at hk
        exact ⟨answers, error, rfl, k, by rw [hk], hd, ho⟩
      · intro found d' o' h
        obtain ⟨answers, k, hk, hd, ho⟩ := h
        dsimp only at hk
        cases found with
        | none => exact Serves.of_throw ⟨answers, invalidKey, rfl, k, by rw [hk], hd, ho⟩
        | some owner => exact Serves.of_pure ⟨answers, k, by rw [hk], hd, ho⟩

/-- `_profile_status`. -/
def profileStatus (userId : String) : Program Json (Option String) :=
  if uuidOf userId = none then return none
  else rethrow (unavailable accountCheckDown) do
    let id ← uuidColumn userId
    load .databaseError fun _ => env.profiles id

theorem profileStatus_serves (d : Tables Json) (o : Outside) (userId : String) :
    Serves d o (profileStatus env userId) (fun _ d' o' => d' = d ∧ o' = o) (Untouched d) := by
  unfold profileStatus
  refine Runs.of_ite (fun _ => Serves.of_pure ⟨rfl, rfl⟩) fun _ => Serves.of_rethrow ?_
  exact uuidColumn_bind rfl fun _ _ => load_serves d o _

/-- `require_approved_user`. -/
def requireApprovedUser (credentials : Option Credentials) : Program Json AuthUser := do
  let user ← checked .http (currentUser api.auth env.identity credentials)
  if ¬api.auth.authEnabled then
    throw (.http ⟨409, "Worker keys need sign-in (AUTH_ENABLED=true)"⟩)
  let status ← profileStatus env user.id
  if status ≠ some "approved" then throw (.http ⟨403, "Your account is not approved"⟩)
  return user

theorem requireApprovedUser_serves (d : Tables Json) (o : Outside)
    (credentials : Option Credentials) :
    Serves d o (requireApprovedUser api env credentials) (fun _ d' o' => d' = d ∧ o' = o)
      (Untouched d) := by
  unfold requireApprovedUser
  refine Runs.checked_bind (fun _ _ => rfl) fun user _ => ?_
  refine Runs.of_ite (fun _ => Runs.throw_bind rfl) fun _ => ?_
  refine Serves.bind (profileStatus_serves env d o user.id) fun status d' o' h => ?_
  obtain ⟨rfl, rfl⟩ := h
  exact Runs.of_ite (fun _ => Runs.throw_bind rfl) fun _ => Serves.of_pure ⟨rfl, rfl⟩

/-- `require_admin`, with the user that it depends on. -/
def requireAdmin (credentials : Option Credentials) : Program Json AuthUser :=
  checked .http do
    let user ← currentUser api.auth env.identity credentials
    Authentication.requireAdmin api.auth api.casefold user

end Guards

section Handlers
variable (env : Surroundings) (caller : AuthUser)

/-- `except WorkerIdTaken`. -/
def idTaken : Raised → Raised
  | .service (.workerIdTaken message) => .http ⟨409, message⟩
  | e => e

/-- `register_worker`. -/
def registerWorker [EmptyCollection Json] (req : WorkerRegisterRequest Json) :
    Program Json (Reply Json) := do
  let worker ← rethrow idTaken (SessionServices.registerWorker env.now {
    workerId := req.workerId
    name := req.name
    sessionId := req.sessionId
    capabilities := req.capabilities
    version := req.version
    ownerUserId := caller.ownerUserId })
  return .worker (some worker)

/-- `except WorkerServiceError`, with its subclass. -/
def heartbeatRefused : Raised → Raised
  | .service (.workerServiceError message) => .http ⟨409, message⟩
  | .service (.workerIdTaken message) => .http ⟨409, message⟩
  | e => e

/-- The arguments that `worker_heartbeat` passes on. -/
def heartbeatOf (workerId : String) (req : WorkerHeartbeatRequest Json) :
    WorkerService.Heartbeat Json where
  workerId := workerId
  sessionId := req.sessionId
  state := req.state
  currentTaskId := req.currentTaskId
  claimToken := req.claimToken
  progressStage := req.progressStage
  progressMessage := req.progressMessage
  progressCurrent := req.progressCurrent
  progressTotal := req.progressTotal
  details := req.details

/-- `worker_heartbeat`: who calls is not passed on. -/
def workerHeartbeat (workerId : String) (req : WorkerHeartbeatRequest Json) :
    Program Json (Reply Json) := do
  let worker ← rethrow heartbeatRefused
    (SessionServices.heartbeat env.now (heartbeatOf workerId req))
  return .worker worker

/-- `submit_task`: the exceptions of the service are not caught. -/
def submitTask (cfg : Settings) (req : TaskSubmitRequest Json) : Program Json (Reply Json) := do
  let task ← SessionServices.submitTask cfg env.now env.createdAt env.newId req.taskType
    req.payload req.leaseMinutes req.retentionHours
  return .task task

/-- The check that `claim_next` makes for the key of a user. -/
def checkClaimant (workerId : Option String) : Program Json Unit :=
  match caller.ownerUserId, workerId with
  | some owner, some workerId => do
    let worker ← load .databaseError fun t => t.workers.get workerId
    if worker.all fun worker => worker.ownerUserId ≠ some owner then
      throw (.http ⟨409, s!"worker {workerId} is not registered with this key's owner"⟩)
  | _, _ => return ()

/-- The key of a user claims as a worker of that user only, if it names one. -/
theorem checkClaimant_serves (d : Tables Json) (o : Outside) (workerId : Option String) :
    Serves d o (checkClaimant caller workerId)
      (fun _ d' o' => d' = d ∧ o' = o ∧ ∀ owner id, caller.ownerUserId = some owner →
        workerId = some id → ∃ worker, d.workers.get id = some worker ∧
          worker.ownerUserId = some owner)
      (Untouched d) := by
  unfold checkClaimant
  cases caller.ownerUserId with
  | none => exact Serves.of_pure ⟨rfl, rfl, fun _ _ h => by cases h⟩
  | some owner =>
    cases workerId with
    | none => exact Serves.of_pure ⟨rfl, rfl, fun _ _ _ h => by cases h⟩
    | some id =>
      refine Runs.load_bind rfl ?_
      refine Runs.of_ite (fun _ => Runs.of_throw rfl) fun hall => ?_
      refine Serves.of_pure ⟨rfl, rfl, ?_⟩
      intro _ _ h h'
      cases h
      cases h'
      cases hget : d.workers.get id with
      | none => simp [hget] at hall
      | some worker => exact ⟨worker, rfl, by simpa [hget] using hall⟩

/-- `worker_id or f"worker-{uuid.uuid4().hex[:8]}"`. -/
def claimant (workerId : Option String) : String :=
  (workerId.filter (· ≠ "")).getD s!"worker-{env.newSuffix}"

/-- The claim is made in the name that the request gives, or in the one that is drawn. -/
theorem claimant_cases (workerId : Option String) :
    claimant env workerId = claimant env none ∨ workerId = some (claimant env workerId) := by
  unfold claimant
  cases hid : workerId.filter (· ≠ "") with
  | none => exact .inl rfl
  | some id => exact .inr (Option.filter_eq_some_iff.1 hid).1

/-- `claim_next`. -/
def claimNext (query : ClaimQuery) : Program Json (Reply Json) := do
  checkClaimant caller query.workerId
  let claimed ← SessionServices.claimNext env.now env.newToken (split query.taskTypes ',')
    (claimant env query.workerId) query.leaseMinutes
  return .claimed claimed

/-- `except TaskServiceError`, with the status of the route. -/
def taskRefused (status : ℕ) : Raised → Raised
  | .service (.taskServiceError message) => .http ⟨status, message⟩
  | e => e

/-- `get_task`. -/
def getTask (taskId : String) : Program Json (Reply Json) := do
  let task ← rethrow (taskRefused 404) (SessionServices.getTask taskId)
  return .task task

/-- `complete_task`. -/
def completeTask (taskId : String) (req : TaskCompleteRequest Json) :
    Program Json (Reply Json) := do
  let task ← rethrow (taskRefused 409)
    (SessionServices.completeTask env.now taskId req.claimToken req.result)
  return .task task

/-- `fail_task`. -/
def failTask (taskId : String) (req : TaskFailRequest) : Program Json (Reply Json) := do
  let task ← rethrow (taskRefused 409)
    (SessionServices.failTask env.now taskId req.claimToken req.error)
  return .task task

/-- `upload_artifact`. -/
def uploadArtifact (retentionHours : Int) (file : UploadFile) : Program Json (Reply Json) := do
  let contentType := (file.contentType.filter (· ≠ "")).getD "application/octet-stream"
  let artifact ← SessionServices.uploadArtifact retentionHours env.now env.createdAt env.newId
    file.sizeBytes contentType env.upload
  return .artifact artifact

/-- `except ArtifactServiceError`. -/
def artifactMissing : Raised → Raised
  | .artifact (.artifactServiceError message) => .http ⟨404, message⟩
  | e => e

/-- `get_artifact`. -/
def getArtifact (artifactId : String) : Program Json (Reply Json) := do
  let artifact ← rethrow artifactMissing (SessionServices.getArtifact artifactId)
  return .artifact artifact

/-- `delete_artifact`. -/
def deleteArtifact (artifactId : String) : Program Json (Reply Json) := do
  rethrow artifactMissing (deleteArtifactFiles artifactId env.deletions)
  return .deleted

/-- `list_worker_keys`. -/
def listWorkerKeys : Program Json (Reply Json) := do
  let keys ← listKeys caller.id
  return .workerKeys keys

/-- `except WorkerKeyLimit`. -/
def keyLimit : Raised → Raised
  | .workerKey (.workerKeyLimit message) => .http ⟨409, message⟩
  | e => e

/-- `create_worker_key`. -/
def createWorkerKey (sha256 : String → String) (req : WorkerKeyCreateRequest) :
    Program Json (Reply Json) := do
  let created ← rethrow keyLimit
    (createKey sha256 env.createdAt env.newId env.newToken caller.id req.name)
  return .createdKey created.1 created.2

/-- `except WorkerKeyNotFound`. -/
def keyMissing : Raised → Raised
  | .workerKey (.workerKeyNotFound message) => .http ⟨404, message⟩
  | e => e

/-- `revoke_worker_key`. -/
def revokeWorkerKey (keyId : String) : Program Json (Reply Json) := do
  let key ← rethrow keyMissing (revokeKey env.now caller.id keyId)
  return .workerKey key

end Handlers

/-- What the framework answers to a request that does not fit its models. -/
def unprocessable : Raised := .http ⟨422, "Unprocessable Entity"⟩

/-- A body is read before the guard runs and checked against its model after it. -/
def endpoint {α : Type} (guard : Program Json AuthUser) (input : Input α) (valid : α → Bool)
    (route : AuthUser → α → Program Json (Reply Json)) : Program Json (Reply Json) :=
  match input with
  | .unreadable => throw unprocessable
  | .mistyped => do
    let _ ← guard
    throw unprocessable
  | .given value => do
    let user ← guard
    if valid value then route user value else throw unprocessable

/-- The guard and the route of a request. -/
def handle [EmptyCollection Json] (api : Api Json) (env : Surroundings) (req : Request Json) :
    Program Json (Reply Json) :=
  let worker := requireWorker api env req.apiKey
  let producer := checked .http (requireProducer api.sha256 api.auth req.apiKey)
  let approvedUser := requireApprovedUser api env req.credentials
  match req.route with
  | .registerWorker input =>
    endpoint worker input WorkerRegisterRequest.valid fun caller req =>
      registerWorker env caller req
  | .workerHeartbeat workerId input =>
    endpoint worker input (WorkerHeartbeatRequest.valid api.dumps)
      fun _ req => workerHeartbeat env workerId req
  | .listWorkers => do
    let _ ← checked .http (requireAdminOrService api.sha256 api.auth api.casefold env.identity
      req.apiKey req.credentials)
    let rows ← listWorkers
    return .workers rows
  | .submitTask input =>
    endpoint producer input TaskSubmitRequest.valid fun _ req => submitTask env api.queue req
  | .listTasks status taskType => do
    let _ ← requireAdmin api env req.credentials
    let rows ← listTasks status taskType
    return .tasks rows
  | .claimNext input => endpoint worker input ClaimQuery.valid (claimNext env)
  | .getTask taskId => do
    let _ ← producer
    getTask taskId
  | .completeTask taskId input =>
    endpoint worker input (fun _ => true) fun _ req => completeTask env taskId req
  | .failTask taskId input =>
    endpoint worker input (fun _ => true) fun _ req => failTask env taskId req
  | .uploadArtifact input =>
    endpoint worker input (fun _ => true) fun _ file =>
      uploadArtifact env api.artifactRetentionHours file
  | .getArtifact artifactId => do
    let _ ← producer
    getArtifact artifactId
  | .deleteArtifact artifactId => do
    let _ ← checked .http (requireProducerStrict api.sha256 api.auth req.apiKey)
    deleteArtifact env artifactId
  | .listWorkerKeys => do
    let user ← approvedUser
    listWorkerKeys user
  | .createWorkerKey input =>
    endpoint approvedUser input WorkerKeyCreateRequest.valid fun user req =>
      createWorkerKey env user api.sha256 req
  | .revokeWorkerKey input =>
    endpoint approvedUser input (fun _ => true) (revokeWorkerKey env)

/-- A request alone on a session of its own, which is closed at its end. -/
def serve [EmptyCollection Json] (api : Api Json) (env : Surroundings) (t : Tables Json)
    (o : Outside) (req : Request Json) :
    Except Raised (Reply Json) × Session (Tables Json) Outside :=
  StateExceptions.runFrom (handle api env req) (opened t env.refusals o)

end TaskQueue.Routes

import TaskQueue.LeaseRefinement
import TaskQueue.OwnerIsolation
import TaskQueue.RejectedRequests

/-!
# The routes refine the queue

A request that the API answers with success is one request on the two queue tables, made for
the caller that the guard of its route has let in, or it leaves both tables as they were. So
does every request that ends in an exception. A run of the API with its cleanup jobs is
therefore a run of the queue, and every task keeps the lease protocol.
-/

namespace TaskQueue.RouteRefinement
open KeyedTables Sessions StateExceptions Uuid PythonStrings KeyConfiguration Authentication
open Schemas SessionServices Routes RejectedRequests OwnerIsolation
open SerialRequests (Db Response Timed)
open StepRuns LeaseRefinement

variable {Json : Type}

abbrev QueueRequest (Json : Type) := SerialRequests.Request Json

/-- The two tables of the queue. -/
def queueOf (t : Tables Json) : Db Json := ⟨t.tasks, t.workers⟩

/-- The scheduled jobs on the queue tables, and the freedom of the database to store the rows in
another order. -/
inductive Job
  | cleanupTasks
  | cleanupWorkers
  | rescan (rank : TaskId → ℕ)

def Job.request : Job → QueueRequest Json
  | .cleanupTasks => .cleanupTasks
  | .cleanupWorkers => .cleanupWorkers
  | .rescan rank => .rescan rank

/-- The guard of a route. -/
def guardOf (api : Api Json) (env : Surroundings) (req : Request Json) : Program Json AuthUser :=
  let worker := requireWorker api env req.apiKey
  let producer := checked .http (requireProducer api.sha256 api.auth req.apiKey)
  let approvedUser := requireApprovedUser api env req.credentials
  match req.route with
  | .registerWorker _ => worker
  | .workerHeartbeat .. => worker
  | .listWorkers => checked .http (requireAdminOrService api.sha256 api.auth api.casefold
      env.identity req.apiKey req.credentials)
  | .submitTask _ => producer
  | .listTasks .. => requireAdmin api env req.credentials
  | .claimNext _ => worker
  | .getTask _ => producer
  | .completeTask .. => worker
  | .failTask .. => worker
  | .uploadArtifact _ => worker
  | .getArtifact _ => producer
  | .deleteArtifact _ => checked .http (requireProducerStrict api.sha256 api.auth req.apiKey)
  | .listWorkerKeys => approvedUser
  | .createWorkerKey _ => approvedUser
  | .revokeWorkerKey _ => approvedUser

/-- The caller that the guard lets in. -/
def callerOf (api : Api Json) (s : Server Json) (a : Asked Json) : Option AuthUser :=
  (runFrom (guardOf api a.env a.request) (opened s.tables a.env.refusals s.outside)).1.toOption

/-- What a route asks of the queue. -/
def queueRequest (env : Surroundings) (caller : AuthUser) :
    Route Json → Option (QueueRequest Json)
  | .registerWorker (.given req) => some (.registerWorker {
      workerId := req.workerId
      name := req.name
      sessionId := req.sessionId
      capabilities := req.capabilities
      version := req.version
      ownerUserId := caller.ownerUserId })
  | .workerHeartbeat workerId (.given req) =>
    some (.heartbeat (asStored (heartbeatOf workerId req)))
  | .submitTask (.given req) =>
    some (.submitTask env.newId req.taskType req.payload req.leaseMinutes req.retentionHours)
  | .claimNext (.given query) =>
    some (.claimNext env.newToken (split query.taskTypes ',') (claimant env query.workerId)
      query.leaseMinutes)
  | .completeTask taskId (.given req) =>
    (pgUuid taskId).map fun id => .completeTask id req.claimToken req.result
  | .failTask taskId (.given req) =>
    (pgUuid taskId).map fun id => .failTask id req.claimToken req.error
  | _ => none

/-- The same with the readings of the clock. -/
def timedRequest (env : Surroundings) (caller : AuthUser) (route : Route Json) :
    Option (Timed Json) :=
  (queueRequest env caller route).map (⟨env.now, env.createdAt, ·⟩)

/-- A reply of a route shows a response of the queue. -/
def Shows : Reply Json → Response Json → Prop
  | .task row, .task row' => row = row'
  | .claimed row, .claimed row' => row = row'
  | .worker _, .accepted => True
  | _, _ => False

section Definitions
variable [EmptyCollection Json]

/-- A reply and the queue that it leaves are those of a queue request, if the route makes one. -/
def Carries (cfg : Settings) (db : Db Json) (q : Option (Timed Json)) (reply : Reply Json)
    (db' : Db Json) : Prop :=
  match q with
  | none => db' = db
  | some r => db' = (SerialRequests.handle cfg db r).1 ∧
      Shows reply (SerialRequests.handle cfg db r).2

/-- The queue request that a request of the API is; none if it ends in an exception. -/
def servedAs (api : Api Json) (s : Server Json) (a : Asked Json) : Option (Timed Json) :=
  match (serve api a.env s.tables s.outside a.request).1 with
  | .error _ => none
  | .ok _ => (callerOf api s a).bind fun caller => timedRequest a.env caller a.request.route

/-- A request alone on its session, or a job. -/
inductive Label (Json : Type)
  | serve (asked : Asked Json)
  | job (now : Time) (job : Job)
  | cleanupArtifacts (now : Time)

/-- The server and the time up to which it has run. -/
structure Running (Json : Type) where
  server : Server Json
  clock : Time

/-- The clock never goes back. -/
def step (api : Api Json) (s : Running Json) : Label Json → Option (Running Json)
  | .serve a =>
    if s.clock ≤ a.env.now ∧ a.env.now ≤ a.env.createdAt then
      some ⟨after api s.server a, a.env.createdAt⟩
    else none
  | .job now job =>
    if s.clock ≤ now then
      let db := (SerialRequests.handle api.queue (queueOf s.server.tables)
        ⟨now, now, job.request⟩).1
      some ⟨{ s.server with
        tables := { s.server.tables with tasks := db.tasks, workers := db.workers } }, now⟩
    else none
  | .cleanupArtifacts now =>
    if s.clock ≤ now then
      let store := ArtifactService.cleanupArtifacts now
        ⟨s.server.tables.artifacts, s.server.outside.objects⟩
      some ⟨{ s.server with
        tables := { s.server.tables with artifacts := store.artifacts } }, now⟩
    else none

/-- The queue request that a step is. -/
def Label.request (api : Api Json) (s : Running Json) : Label Json → Option (Timed Json)
  | .serve a => servedAs api s.server a
  | .job now scheduled => some ⟨now, now, scheduled.request⟩
  | .cleanupArtifacts _ => none

/-- The uuid that a request may draw for a new row. -/
def Label.newId : Label Json → Option String
  | .serve a => some a.env.newId
  | _ => none

/-- The claim token that a request may draw. -/
def Label.newToken : Label Json → Option String
  | .serve a => some a.env.newToken
  | _ => none

/-- A request that ends in an exception leaves the queue alone. One that is answered was let in
by the guard of its route, and its answer and the queue it leaves are those of its queue
request. -/
def Answered (api : Api Json) (s : Running Json) : Label Json → Prop
  | .serve a => match (serve api a.env s.server.tables s.server.outside a.request).1 with
    | .error _ => queueOf (after api s.server a).tables = queueOf s.server.tables
    | .ok reply => ∃ caller, callerOf api s.server a = some caller ∧
      Carries api.queue (queueOf s.server.tables) (timedRequest a.env caller a.request.route) reply
        (queueOf (after api s.server a).tables)
  | _ => True

/-- The run of the queue that a run of the API is. -/
def queueRun (api : Api Json) : Running Json → List (Label Json) → List (Timed Json)
  | _, [] => []
  | s, l :: ls => match step api s l with
    | none => []
    | some t => (l.request api s).toList ++ queueRun api t ls

/-- A server whose queue is empty. Its keys and artifacts are arbitrary. -/
def begin (clock : Time) (artifacts : ArtifactService.ArtifactTable)
    (keys : WorkerKeyService.KeyTable) (outside : Outside) : Running Json :=
  ⟨⟨⟨Table.empty, Table.empty, artifacts, keys⟩, outside⟩, clock⟩

end Definitions

section Guarded
variable {α : Type} {s t : Session (Tables Json) Outside} {guard : Program Json AuthUser}

/-- What a guarded route returns, it returns to the caller that the guard has let in. -/
theorem guarded_ok {route : AuthUser → Program Json α} {a : α}
    (h : runFrom (guard >>= route) s = (.ok a, t)) :
    ∃ caller s₁, runFrom guard s = (.ok caller, s₁) ∧ runFrom (route caller) s₁ = (.ok a, t) := by
  rcases hguard : runFrom guard s with ⟨e | caller, s₁⟩
  · rw [runFrom_bind_error hguard] at h
    cases h
  · rw [runFrom_bind_ok hguard] at h
    exact ⟨caller, s₁, rfl, h⟩

/-- A route with a model returns only for a value of the model. -/
theorem endpoint_ok {input : Input α} {valid : α → Bool}
    {route : AuthUser → α → Program Json (Reply Json)} {reply : Reply Json}
    (h : runFrom (endpoint guard input valid route) s = (.ok reply, t)) :
    ∃ value caller s₁, input = .given value ∧ runFrom guard s = (.ok caller, s₁) ∧
      runFrom (route caller value) s₁ = (.ok reply, t) := by
  cases input with
  | unreadable => cases h
  | mistyped =>
    obtain ⟨caller, s₁, -, hr⟩ := guarded_ok h
    cases hr
  | given value =>
    obtain ⟨caller, s₁, hguard, hr⟩ := guarded_ok h
    split at hr
    · exact ⟨value, caller, s₁, rfl, hguard, hr⟩
    · cases hr

theorem queueOf_kept {sha256 : String → String} {apiKey : Option String} {d d' : Tables Json}
    (h : Kept sha256 apiKey d d') : queueOf d' = queueOf d := by
  rw [queueOf, queueOf, h.tasks, h.workers]

theorem guardOf_guards (api : Api Json) (env : Surroundings) (req : Request Json) :
    Guards api.sha256 req.apiKey (guardOf api env req) := by
  have hpure : ∀ x : Except HttpError AuthUser, Guards api.sha256 req.apiKey
      (checked .http x : Program Json AuthUser) :=
    fun x => guards_of_serves fun d o => checked_serves d o _ x
  have happroved : Guards api.sha256 req.apiKey (requireApprovedUser api env req.credentials) :=
    guards_of_serves fun d o => requireApprovedUser_serves api env d o _
  unfold guardOf
  split <;> first
    | exact guards_requireWorker api env req.apiKey
    | exact hpure _
    | exact happroved

end Guarded

section Aside
variable {α β : Type} {m : Program Json α}

/-- A program leaves both tables of the queue as they were. -/
abbrev Aside (m : Program Json α) : Prop :=
  ∀ d o, Serves d o m (fun _ d' _ => queueOf d' = queueOf d) (Untouched d)

theorem Aside.of_serves {Q : Tables Json → Outside → α → Tables Json → Outside → Prop}
    (h : ∀ d o, Serves d o m (Q d o) (Untouched d))
    (hQ : ∀ d o a d' o', Q d o a d' o' → queueOf d' = queueOf d) : Aside m :=
  fun d o => (h d o).mono (hQ d o) fun _ _ _ he => he

theorem Aside.rethrow (h : Aside m) (convert : Raised → Raised) : Aside (rethrow convert m) :=
  fun d o => Serves.of_rethrow (h d o)

theorem Aside.reply (h : Aside m) (f : α → β) : Aside (m >>= fun a => pure (f a)) :=
  fun d o => Serves.bind (h d o) fun _ _ _ hkept => Serves.of_pure hkept

theorem load_aside (query : Tables Json → α) : Aside (load Raised.databaseError query) :=
  .of_serves (fun d o => load_serves d o query) fun _ _ _ _ _ h => by rw [h.1]

theorem getTask_aside (taskId : String) :
    Aside (SessionServices.getTask taskId : Program Json (Task Json)) :=
  .of_serves (fun d o => getTask_serves d o taskId) fun _ _ _ _ _ h => by rw [h.1]

theorem listKeys_aside (userId : String) :
    Aside (listKeys userId : Program Json (List WorkerKeyService.WorkerKey)) :=
  .of_serves (fun d o => listKeys_serves d o userId) fun _ _ _ _ _ h => by rw [h.1]

theorem uploadArtifact_aside (env : Surroundings) (retentionHours : Int) (file : UploadFile) :
    Aside (Routes.uploadArtifact env retentionHours file : Program Json (Reply Json)) := by
  refine Aside.reply (.of_serves (fun d o => uploadArtifact_serves d o _ _ _ _ _ _ _) ?_) _
  rintro d o row _ _ ⟨store, rfl, -⟩
  rfl

theorem getArtifact_aside (artifactId : String) :
    Aside (SessionServices.getArtifact artifactId : Program Json ArtifactService.Artifact) :=
  .of_serves (fun d o => getArtifact_serves d o artifactId) fun _ _ _ _ _ h => by rw [h.1]

theorem deleteArtifactFiles_aside (artifactId : String)
    (attempts : String → ArtifactService.DeleteAttempt) :
    Aside (deleteArtifactFiles artifactId attempts : Program Json Unit) := by
  refine .of_serves (fun d o => deleteArtifactFiles_serves d o artifactId attempts) ?_
  rintro d o _ _ _ ⟨store, rfl, -⟩
  rfl

theorem createKey_aside (sha256 : String → String) (now : Time) (id token userId name : String) :
    Aside (createKey sha256 now id token userId name :
      Program Json (WorkerKeyService.WorkerKey × String)) := by
  refine .of_serves (fun d o => createKey_serves sha256 d o now id token userId name) ?_
  rintro d o created _ _ ⟨-, owner, keys, -, rfl, -⟩
  rfl

theorem revokeKey_aside (now : Time) (userId keyId : String) :
    Aside (revokeKey now userId keyId : Program Json WorkerKeyService.WorkerKey) := by
  refine .of_serves (fun d o => revokeKey_serves d o now userId keyId) ?_
  rintro d o key _ _ ⟨-, keys, rfl, -⟩
  rfl

end Aside

section Routes
variable [EmptyCollection Json] (api : Api Json) (env : Surroundings) (caller : AuthUser)

/-- The program does to the queue what the route asks of it. -/
abbrev Refines (route : Route Json) (m : Program Json (Reply Json)) : Prop :=
  ∀ d o, Serves d o m
    (fun reply d' _ =>
      Carries api.queue (queueOf d) (timedRequest env caller route) reply (queueOf d'))
    (Untouched d)

/-- A program that asks nothing of the queue leaves it alone. -/
theorem Refines.aside {route : Route Json} {m : Program Json (Reply Json)}
    (hroute : queueRequest env caller route = none) (h : Aside m) :
    Refines api env caller route m := by
  intro d o
  refine (h d o).mono ?_ fun _ _ _ he => he
  intro reply d' o' hkept
  simp only [timedRequest, hroute]
  exact hkept

theorem registerWorker_refines (req : WorkerRegisterRequest Json) :
    Refines api env caller (.registerWorker (.given req)) (registerWorker env caller req) := by
  intro d o
  refine Serves.bind (Serves.of_rethrow (registerWorker_serves d o _ _)) fun worker d' o' h => ?_
  obtain ⟨-, workers, rfl, hok⟩ := h
  refine Serves.of_pure ?_
  simp only [timedRequest, queueRequest, Option.map_some, Carries, SerialRequests.handle, queueOf,
    hok, Shows, and_self]

omit [EmptyCollection Json] in
/-- A heartbeat that passes its checks passes them with the id as it is stored. -/
theorem checkHeartbeat_asStored {d : Tables Json} {req : WorkerService.Heartbeat Json}
    (h : WorkerService.checkLoads req (d.workers.get req.workerId) (taskOf d.tasks) = .ok ()) :
    WorkerService.checkHeartbeat d.tasks d.workers (asStored req) = .ok () := by
  obtain ⟨hworker, htask⟩ := WorkerService.checkLoads_ok_iff.1 h
  obtain ⟨worker, hget, hsession, hstate, hprogress⟩ := WorkerService.checkWorker_ok_iff.1 hworker
  have hfound : ∀ taskId, req.currentTaskId = some taskId →
      ∃ id task, pgUuid taskId = some id ∧ d.tasks.get id = some task ∧ task.status = .claimed ∧
        task.claimedBy = some req.workerId ∧ task.claimToken = req.claimToken := by
    intro taskId hnamed
    obtain ⟨task, hof, hclaim⟩ := WorkerService.checkTask_ok_iff.1 (htask taskId hnamed)
    obtain ⟨id, hid, hget⟩ := Option.bind_eq_some_iff.1 hof
    exact ⟨id, task, hid, hget, hclaim⟩
  have hnamed : req.currentTaskId.bind pgUuid ≠ none ↔ req.currentTaskId ≠ none := by
    cases hc : req.currentTaskId with
    | none => simp
    | some taskId =>
      obtain ⟨id, -, hid, -⟩ := hfound taskId hc
      simp [hid]
  refine WorkerService.checkHeartbeat_ok_iff.2 ⟨?_, ?_⟩
  · exact WorkerService.checkWorker_ok_iff.2
      ⟨worker, hget, hsession, hstate.trans hnamed.symm, hprogress⟩
  · intro stored hstored
    obtain ⟨taskId, hc, hid⟩ := Option.bind_eq_some_iff.1 hstored
    obtain ⟨id, task, hid', hget, hclaim⟩ := hfound taskId hc
    cases hid.symm.trans hid'
    exact WorkerService.checkTask_ok_iff.2 ⟨task, hget, hclaim⟩

theorem workerHeartbeat_refines (workerId : String) (req : WorkerHeartbeatRequest Json) :
    Refines api env caller (.workerHeartbeat workerId (.given req))
      (workerHeartbeat env workerId req) := by
  intro d o
  refine Serves.bind (Serves.of_rethrow (heartbeat_serves d o _ _)) fun worker d' o' h => ?_
  obtain ⟨-, rfl, hchecks⟩ := h
  have hok : WorkerService.heartbeat env.now d.tasks d.workers
      (asStored (heartbeatOf workerId req)) = .ok _ :=
    WorkerService.heartbeat_ok_iff.2 ⟨checkHeartbeat_asStored hchecks, rfl⟩
  refine Serves.of_pure ?_
  simp only [timedRequest, queueRequest, Option.map_some, Carries, SerialRequests.handle, queueOf,
    hok, Shows, and_true]
  rfl

theorem submitTask_refines (req : TaskSubmitRequest Json) :
    Refines api env caller (.submitTask (.given req)) (submitTask env api.queue req) := by
  intro d o
  refine Serves.bind (submitTask_serves d o _ _ _ _ _ _ _ _) fun task d' o' h => ?_
  obtain ⟨-, tasks, rfl, hok⟩ := h
  refine Serves.of_pure ?_
  simp only [timedRequest, queueRequest, Option.map_some, Carries, SerialRequests.handle, queueOf,
    hok, Shows, and_self]

theorem claimNext_refines (query : ClaimQuery) :
    Refines api env caller (.claimNext (.given query))
      (claimNext env caller query : Program Json (Reply Json)) := by
  intro d o
  refine Serves.bind (checkClaimant_serves caller d o query.workerId) fun _ d' o' h => ?_
  obtain ⟨rfl, rfl, -⟩ := h
  refine Serves.bind (claimNext_serves d' o' _ _ _ _ _) fun row d'' o'' h => ?_
  obtain ⟨-, tasks, rfl, hok⟩ := h
  refine Serves.of_pure ?_
  simp only [timedRequest, queueRequest, Option.map_some, Carries, SerialRequests.handle, queueOf,
    hok, Shows, and_self]

theorem completeTask_refines (taskId : String) (req : TaskCompleteRequest Json) :
    Refines api env caller (.completeTask taskId (.given req)) (completeTask env taskId req) := by
  intro d o
  refine Serves.bind (Serves.of_rethrow (settleTask_serves d o _ _ _ _)) fun task d' o' h => ?_
  obtain ⟨-, id, tasks, hid, rfl, hok⟩ := h
  refine Serves.of_pure ?_
  simp only [timedRequest, queueRequest, hid, Option.map_some, Carries, SerialRequests.handle,
    queueOf, TaskService.completeTask, hok, Shows, and_self]

theorem failTask_refines (taskId : String) (req : TaskFailRequest) :
    Refines api env caller (.failTask taskId (.given req))
      (failTask env taskId req : Program Json (Reply Json)) := by
  intro d o
  refine Serves.bind (Serves.of_rethrow (settleTask_serves d o _ _ _ _)) fun task d' o' h => ?_
  obtain ⟨-, id, tasks, hid, rfl, hok⟩ := h
  refine Serves.of_pure ?_
  simp only [timedRequest, queueRequest, hid, Option.map_some, Carries, SerialRequests.handle,
    queueOf, TaskService.failTask, hok, Shows, and_self]

end Routes

section Handle
variable [EmptyCollection Json] {api : Api Json} {env : Surroundings} {sha256 : String → String}
  {apiKey : Option String} {guard : Program Json AuthUser} {d : Tables Json} {o : Outside}
  {s t : Session (Tables Json) Outside} {reply : Reply Json}

/-- The guard leaves the queue alone, and then the route does what it asks of it. -/
theorem carries_of_guarded {caller : AuthUser} {route : Route Json}
    {m : Program Json (Reply Json)} {s₁ : Session (Tables Json) Outside}
    (hkeeps : Guards sha256 apiKey guard) (hs : Clean d o s)
    (hguard : runFrom guard s = (.ok caller, s₁)) (hroute : Refines api env caller route m)
    (hr : runFrom m s₁ = (.ok reply, t)) :
    Carries api.queue (queueOf d) (timedRequest env caller route) reply (queueOf t.stored) := by
  obtain ⟨hkept, hclean⟩ := (hkeeps d o).ok hs hguard
  have hcarries := ((hroute s₁.stored s₁.outside).ok hclean hr).1
  rwa [queueOf_kept hkept] at hcarries

theorem guarded_refines {route : Route Json} {m : AuthUser → Program Json (Reply Json)}
    (hkeeps : Guards sha256 apiKey guard)
    (hroute : ∀ caller, Refines api env caller route (m caller))
    (hs : Clean d o s) (h : runFrom (guard >>= m) s = (.ok reply, t)) :
    ∃ caller s₁, runFrom guard s = (.ok caller, s₁) ∧
      Carries api.queue (queueOf d) (timedRequest env caller route) reply (queueOf t.stored) := by
  obtain ⟨caller, s₁, hguard, hr⟩ := guarded_ok h
  exact ⟨caller, s₁, hguard, carries_of_guarded hkeeps hs hguard (hroute caller) hr⟩

theorem endpoint_refines {α : Type} {input : Input α} {valid : α → Bool}
    {m : AuthUser → α → Program Json (Reply Json)} (route : Input α → Route Json)
    (hkeeps : Guards sha256 apiKey guard)
    (hroute : ∀ caller value, Refines api env caller (route (.given value)) (m caller value))
    (hs : Clean d o s) (h : runFrom (endpoint guard input valid m) s = (.ok reply, t)) :
    ∃ caller s₁, runFrom guard s = (.ok caller, s₁) ∧
      Carries api.queue (queueOf d) (timedRequest env caller (route input)) reply
        (queueOf t.stored) := by
  obtain ⟨value, caller, s₁, rfl, hguard, hr⟩ := endpoint_ok h
  exact ⟨caller, s₁, hguard, carries_of_guarded hkeeps hs hguard (hroute caller value) hr⟩

/-- What the API returns, it returns to the caller that the guard of the route has let in, and
the queue is left as the queue request of the route leaves it. -/
theorem handle_refines {req : Request Json} (hs : Clean d o s)
    (h : runFrom (handle api env req) s = (.ok reply, t)) :
    ∃ caller s₁, runFrom (guardOf api env req) s = (.ok caller, s₁) ∧
      Carries api.queue (queueOf d) (timedRequest env caller req.route) reply
        (queueOf t.stored) := by
  have hkeeps := guardOf_guards api env req
  obtain ⟨apiKey, credentials, route⟩ := req
  cases route with
  | registerWorker input =>
    exact endpoint_refines .registerWorker hkeeps (registerWorker_refines api env) hs h
  | workerHeartbeat workerId input =>
    exact endpoint_refines (.workerHeartbeat workerId) hkeeps
      (fun caller => workerHeartbeat_refines api env caller workerId) hs h
  | listWorkers =>
    exact guarded_refines hkeeps
      (fun caller => .aside api env caller rfl ((load_aside _).reply _)) hs h
  | submitTask input =>
    exact endpoint_refines .submitTask hkeeps (submitTask_refines api env) hs h
  | listTasks status taskType =>
    exact guarded_refines hkeeps
      (fun caller => .aside api env caller rfl ((load_aside _).reply _)) hs h
  | claimNext input =>
    exact endpoint_refines .claimNext hkeeps (claimNext_refines api env) hs h
  | getTask taskId =>
    exact guarded_refines hkeeps
      (fun caller => .aside api env caller rfl (((getTask_aside taskId).rethrow _).reply _)) hs h
  | completeTask taskId input =>
    exact endpoint_refines (.completeTask taskId) hkeeps
      (fun caller => completeTask_refines api env caller taskId) hs h
  | failTask taskId input =>
    exact endpoint_refines (.failTask taskId) hkeeps
      (fun caller => failTask_refines api env caller taskId) hs h
  | uploadArtifact input =>
    exact endpoint_refines .uploadArtifact hkeeps
      (fun caller file => .aside api env caller rfl (uploadArtifact_aside env _ file)) hs h
  | getArtifact artifactId =>
    exact guarded_refines hkeeps
      (fun caller => .aside api env caller rfl (((getArtifact_aside artifactId).rethrow _).reply _))
      hs h
  | deleteArtifact artifactId =>
    exact guarded_refines hkeeps
      (fun caller => .aside api env caller rfl
        (((deleteArtifactFiles_aside artifactId _).rethrow _).reply _)) hs h
  | listWorkerKeys =>
    exact guarded_refines hkeeps
      (fun caller => .aside api env caller rfl ((listKeys_aside caller.id).reply _)) hs h
  | createWorkerKey input =>
    exact endpoint_refines .createWorkerKey hkeeps
      (fun caller req => .aside api env caller rfl
        (((createKey_aside _ _ _ _ _ _).rethrow _).reply _)) hs h
  | revokeWorkerKey input =>
    exact endpoint_refines .revokeWorkerKey hkeeps
      (fun caller keyId => .aside api env caller rfl
        (((revokeKey_aside _ _ _).rethrow _).reply _)) hs h

end Handle

section Runs
variable [EmptyCollection Json] {api : Api Json}

/-- An exception leaves the queue alone, and no queue request has been served. -/
theorem served_error {s : Server Json} {a : Asked Json} {e : Raised}
    (h : (serve api a.env s.tables s.outside a.request).1 = .error e) :
    servedAs api s a = none ∧ queueOf (after api s a).tables = queueOf s.tables := by
  refine ⟨by simp only [servedAs, h], ?_⟩
  rcases hserved : serve api a.env s.tables s.outside a.request with ⟨r, t⟩
  rw [hserved] at h
  cases h
  have hkept := (handle_serves api a.env s.tables s.outside a.request).error
    (opened_clean s.tables a.env.refusals s.outside) hserved
  simp only [after, hserved]
  exact queueOf_kept hkept

/-- An answer is that of the queue request that has been served. -/
theorem served_ok {s : Server Json} {a : Asked Json} {reply : Reply Json}
    (h : (serve api a.env s.tables s.outside a.request).1 = .ok reply) :
    ∃ caller, callerOf api s a = some caller ∧
      servedAs api s a = timedRequest a.env caller a.request.route ∧
      Carries api.queue (queueOf s.tables) (timedRequest a.env caller a.request.route) reply
        (queueOf (after api s a).tables) := by
  rcases hserved : serve api a.env s.tables s.outside a.request with ⟨r, t⟩
  rw [hserved] at h
  cases h
  obtain ⟨caller, s₁, hguard, hcarries⟩ :=
    handle_refines (opened_clean s.tables a.env.refusals s.outside) hserved
  have hcaller : callerOf api s a = some caller := by
    simp only [callerOf, hguard, Except.toOption]
  refine ⟨caller, hcaller, ?_, ?_⟩
  · simp only [servedAs, hserved, hcaller, Option.bind_some]
  · simpa only [after, hserved] using hcarries

/-- Each step of the API is at most one step of the queue. -/
theorem step_refines {s t : Running Json} {l : Label Json} (h : step api s l = some t) {c : Time}
    (hc : c ≤ s.clock) :
    ∃ c' ≤ t.clock, exec (SerialRequests.step api.queue) ⟨queueOf s.server.tables, c⟩
      (l.request api s).toList = some ⟨queueOf t.server.tables, c'⟩ := by
  cases l with
  | serve a =>
    simp only [step] at h
    split_ifs at h with hclock
    cases h
    simp only [Label.request]
    cases hreply : (serve api a.env s.server.tables s.server.outside a.request).1 with
    | error e =>
      obtain ⟨hnone, hkept⟩ := served_error hreply
      refine ⟨c, hc.trans (hclock.1.trans hclock.2), ?_⟩
      rw [hnone, hkept]
      rfl
    | ok reply =>
      obtain ⟨caller, -, hserved, hcarries⟩ := served_ok hreply
      rw [hserved]
      cases hrequest : timedRequest a.env caller a.request.route with
      | none =>
        rw [hrequest] at hcarries
        refine ⟨c, hc.trans (hclock.1.trans hclock.2), ?_⟩
        rw [show queueOf (after api s.server a).tables = _ from hcarries]
        rfl
      | some r =>
        rw [hrequest] at hcarries
        obtain ⟨q, -, rfl⟩ := Option.map_eq_some_iff.1 hrequest
        refine ⟨a.env.createdAt, le_rfl, ?_⟩
        rw [hcarries.1]
        exact exec_cons_of_step (if_pos ⟨hc.trans hclock.1, hclock.2⟩) []
  | job now scheduled =>
    simp only [step] at h
    split_ifs at h with hclock
    cases h
    exact ⟨now, le_rfl, exec_cons_of_step (if_pos ⟨hc.trans hclock, le_rfl⟩) []⟩
  | cleanupArtifacts now =>
    simp only [step] at h
    split_ifs at h with hclock
    cases h
    exact ⟨c, hc.trans hclock, rfl⟩

/-- A run of the API is a run of the queue. -/
theorem run_refines {s t : Running Json} {ls : List (Label Json)}
    (h : exec (step api) s ls = some t) {c : Time} (hc : c ≤ s.clock) :
    ∃ c' ≤ t.clock, exec (SerialRequests.step api.queue) ⟨queueOf s.server.tables, c⟩
      (queueRun api s ls) = some ⟨queueOf t.server.tables, c'⟩ := by
  induction ls generalizing s c with
  | nil =>
    cases h
    exact ⟨c, hc, rfl⟩
  | cons l ls ih =>
    obtain ⟨m, hm, hrest⟩ := exec_cons_inv h
    obtain ⟨c₁, hc₁, hstep⟩ := step_refines hm hc
    obtain ⟨c₂, hc₂, hrun⟩ := ih hrest hc₁
    refine ⟨c₂, hc₂, ?_⟩
    simp only [queueRun, hm]
    rw [exec_append hstep]
    exact hrun

omit [EmptyCollection Json] in
/-- A queue request draws what the request of the API has drawn. -/
theorem queueRequest_draws {env : Surroundings} {caller : AuthUser} {route : Route Json}
    {q : QueueRequest Json} (h : queueRequest env caller route = some q) :
    (∀ id, submitted q = some id → env.newId = id) ∧
      ∀ token, drawn q = some token → env.newToken = token := by
  unfold queueRequest at h
  split at h
  all_goals first
    | cases h
      simp [submitted, drawn]
    | obtain ⟨id, -, rfl⟩ := Option.map_eq_some_iff.1 h
      simp [submitted, drawn]
    | cases h

theorem request_draws {s : Running Json} {l : Label Json} {r : Timed Json}
    (h : l.request api s = some r) :
    (∀ id, submitted r.request = some id → l.newId = some id) ∧
      ∀ token, drawn r.request = some token → l.newToken = some token := by
  cases l with
  | serve a =>
    simp only [Label.request, servedAs] at h
    split at h
    · cases h
    · obtain ⟨caller, -, h⟩ := Option.bind_eq_some_iff.1 h
      obtain ⟨q, hq, rfl⟩ := Option.map_eq_some_iff.1 h
      obtain ⟨hid, htoken⟩ := queueRequest_draws hq
      exact ⟨fun id h => congrArg some (hid id h), fun token h => congrArg some (htoken token h)⟩
  | job now scheduled =>
    cases h
    cases scheduled <;> simp [Job.request, submitted, drawn]
  | cleanupArtifacts now => cases h

/-- What a run of the queue draws, the run of the API has drawn in the same order. -/
theorem draws_sublist {f : Timed Json → Option String} {g : Label Json → Option String}
    (hf : ∀ (s : Running Json) l r x, l.request api s = some r → f r = some x → g l = some x)
    (s : Running Json) (ls : List (Label Json)) :
    ((queueRun api s ls).filterMap f).Sublist (ls.filterMap g) := by
  induction ls generalizing s with
  | nil => exact List.nil_sublist _
  | cons l ls ih =>
    simp only [queueRun]
    cases hm : step api s l with
    | none => exact List.nil_sublist _
    | some m =>
      change List.Sublist _ (([l] ++ ls).filterMap g)
      rw [List.filterMap_append, List.filterMap_append]
      have hone : ((l.request api s).toList.filterMap f).Sublist ([l].filterMap g) := by
        cases hrequest : l.request api s with
        | none => exact List.nil_sublist _
        | some r =>
          cases hr : f r with
          | none => simp [hr]
          | some x => simp [hr, hf s l r x hrequest hr]
      exact hone.append (ih m)

theorem queueRun_fresh {s : Running Json} {ls : List (Label Json)}
    (hids : (ls.filterMap Label.newId).Nodup) (htokens : (ls.filterMap Label.newToken).Nodup) :
    FreshDraws (queueRun api s ls) where
  ids := hids.sublist (draws_sublist (fun _ _ _ id h hid => (request_draws h).1 id hid) s ls)
  tokens := htokens.sublist
    (draws_sublist (fun _ _ _ token h ht => (request_draws h).2 token ht) s ls)

theorem answered (s : Running Json) (l : Label Json) : Answered api s l := by
  cases l with
  | serve a =>
    simp only [Answered]
    cases hreply : (serve api a.env s.server.tables s.server.outside a.request).1 with
    | error e => exact (served_error hreply).2
    | ok reply =>
      obtain ⟨caller, hcaller, -, hcarries⟩ := served_ok hreply
      exact ⟨caller, hcaller, hcarries⟩
  | _ => trivial

/-- What a run of the API is for the queue. -/
structure KeepsQueue (api : Api Json) (clock : Time) (s t : Running Json) (ls : List (Label Json)) :
    Prop where
  simulated : ∃ c ≤ t.clock, exec (SerialRequests.step api.queue) (SerialRequests.start clock)
    (queueRun api s ls) = some ⟨queueOf t.server.tables, c⟩
  answered : Along (step api) (Answered api) s ls
  lease : ∀ id, FollowsLease
    (historyOf api.queue id (SerialRequests.start clock) (queueRun api s ls))
    (t.server.tables.tasks.get id)

/-- Every run of the API and its jobs from an empty queue is a run of queue requests, those of
the callers that the guards have let in, and keeps the lease protocol. -/
theorem api_keeps_queue (api : Api Json) (clock : Time) (artifacts : ArtifactService.ArtifactTable)
    (keys : WorkerKeyService.KeyTable) (outside : Outside) (ls : List (Label Json))
    (t : Running Json) (hrun : exec (step api) (begin clock artifacts keys outside) ls = some t)
    (hids : (ls.filterMap Label.newId).Nodup) (htokens : (ls.filterMap Label.newToken).Nodup) :
    KeepsQueue api clock (begin clock artifacts keys outside) t ls := by
  obtain ⟨c, hc, hqueue⟩ := run_refines hrun le_rfl
  refine ⟨⟨c, hc, hqueue⟩, Along.of_forall fun l _ s => answered s l, fun id => ?_⟩
  have h := run_tracked hqueue (queueRun_fresh hids htokens) id
  exact h.followsLease

/-- The `n`-th request of the run below. -/
def asks (n : ℕ) (apiKey : String) (route : Route (List ℕ)) : Label (List ℕ) :=
  .serve ⟨{ RejectedRequests.surroundings with
      cacheNow := n
      dbNow := n
      now := n
      createdAt := n
      newId := s!"00000000-0000-4000-8000-00000000000{n}"
      newToken := s!"token-{n}" },
    ⟨if apiKey = "" then none else some apiKey, none, route⟩⟩

/-- A user's worker claims a task and sends a heartbeat for it under another text of its id. Its
report comes through under the third text only, as the first is sent with an unknown key and
the second denotes no task. -/
def threeReports : List (Label (List ℕ)) :=
  [asks 1 "tqw_1" (.registerWorker (.given ⟨"box", "Box", "session-1", [], none⟩)),
    asks 2 "" (.submitTask (.given { taskType := "text_generation", payload := [] })),
    asks 3 "tqw_1" (.claimNext (.given {
      taskTypes := "text_generation"
      workerId := some "box" })),
    asks 4 "tqw_1" (.workerHeartbeat "box" (.given {
      sessionId := "session-1"
      state := .busy
      currentTaskId := some "{00000000-0000-4000-8000-000000000002}"
      claimToken := some "token-3" })),
    asks 5 "tqw_2" (.completeTask "00000000-0000-4000-8000-000000000002"
      (.given ⟨"token-3", [5]⟩)),
    asks 6 "tqw_1" (.completeTask "2" (.given ⟨"token-3", [6]⟩)),
    asks 7 "tqw_1" (.completeTask "00000000000040008000000000000002" (.given ⟨"token-3", [7]⟩)),
    .job 8 .cleanupTasks]

theorem api_keeps_queue_threeReports :
    let s := begin 0 Table.empty RejectedRequests.oneWorker.keys ⟨emptyCache, ∅⟩
    ∃ t, exec (step RejectedRequests.plainApi) s threeReports = some t ∧
      KeepsQueue RejectedRequests.plainApi 0 s t threeReports ∧
      (queueRun RejectedRequests.plainApi s threeReports).length = 6 ∧
      (t.server.tables.tasks.get "00000000-0000-4000-8000-000000000002").bind Task.result =
        some [7] :=
  ⟨_, rfl, api_keeps_queue RejectedRequests.plainApi 0 Table.empty RejectedRequests.oneWorker.keys
    ⟨emptyCache, ∅⟩ threeReports _ rfl (by decide +kernel) (by decide +kernel),
    by decide +kernel, by decide +kernel⟩

end Runs

end TaskQueue.RouteRefinement

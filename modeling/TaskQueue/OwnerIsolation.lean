import TaskQueue.Routes
import TaskQueue.StepRuns

/-!
# Worker rows and their owners

The key of a user registers and claims for workers of that user only: both routes compare
the owner of the row with the owner of the key. A heartbeat does not. It writes the row of
whatever worker it names once it brings the session of that row.
-/

namespace TaskQueue.OwnerIsolation
open KeyedTables Sessions StateExceptions Authentication Schemas SessionServices Routes StepRuns

variable {Json : Type}

/-- The database, and the process with the storage. -/
structure Server (Json : Type) where
  tables : Tables Json
  outside : Outside

/-- A request with what it finds and draws. -/
structure Asked (Json : Type) where
  env : Surroundings
  request : Request Json

/-- The server after a request alone on its session. -/
def after [EmptyCollection Json] (api : Api Json) (s : Server Json) (a : Asked Json) :
    Server Json :=
  let served := (serve api a.env s.tables s.outside a.request).2
  ⟨served.stored, served.outside⟩

/-- The guard of the worker routes, for the key of the request. -/
def guarded (api : Api Json) (s : Server Json) (a : Asked Json) :
    Except Raised AuthUser × Session (Tables Json) Outside :=
  runFrom (requireWorker api a.env a.request.apiKey) (opened s.tables a.env.refusals s.outside)

/-- The user whose self-service key the request presents. -/
def keyUserOf (api : Api Json) (s : Server Json) (a : Asked Json) : Option String :=
  match (guarded api s a).1 with
  | .ok caller => caller.ownerUserId
  | .error _ => none

/-- The requests that register a worker, send its heartbeat or claim a task. -/
def workerRequest : Route Json → Bool
  | .registerWorker _ => true
  | .workerHeartbeat _ _ => true
  | .claimNext _ => true
  | _ => false

/-- The system in which one user's keys send such requests. -/
def step [EmptyCollection Json] (api : Api Json) (owner : String) (s : Server Json)
    (a : Asked Json) : Option (Server Json) :=
  if workerRequest a.request.route ∧ keyUserOf api s a = some owner then some (after api s a)
  else none

/-- The row belongs to another user, or to none. -/
def foreign (owner : String) (worker : Worker Json) : Bool := worker.ownerUserId ≠ some owner

/-- No row of another owner has come, gone or changed. -/
def ForeignKept (owner : String) (workers workers' : WorkerTable Json) : Prop :=
  ∀ id, (workers'.get id).filter (foreign owner) = (workers.get id).filter (foreign owner)

/-- A task that is claimed for a worker of another owner is as it was. -/
def ForeignClaimsKept (owner : String) (t t' : Tables Json) : Prop :=
  ∀ id task workerId worker, t'.tasks.get id = some task → task.claimedBy = some workerId →
    t.workers.get workerId = some worker → foreign owner worker = true → t.tasks.get id = some task

/-- The claims of the run set no claim for a worker of another owner. -/
def ClaimsOwn [EmptyCollection Json] (api : Api Json) (owner : String) (s : Server Json)
    (a : Asked Json) : Prop :=
  ∀ query, a.request.route = .claimNext query →
    ForeignClaimsKept owner s.tables (after api s a).tables

/-- The id that a claim draws for want of another is not registered. -/
def fallbackFree (s : Server Json) (a : Asked Json) : Bool :=
  match a.request.route with
  | .claimNext (.given _) => (s.tables.workers.get (claimant a.env none)).isNone
  | _ => true

/-- A heartbeat that passes the checks of the service names a worker of the user. -/
def heartbeatOwn (api : Api Json) (owner : String) (s : Server Json) (a : Asked Json) : Bool :=
  match a.request.route with
  | .workerHeartbeat workerId (.given req) =>
    !(req.valid api.dumps) || !(WorkerService.checkLoads (heartbeatOf workerId req)
        (s.tables.workers.get workerId) (taskOf s.tables.tasks)).toBool ||
      (s.tables.workers.get workerId).all fun worker => !foreign owner worker
  | _ => true

section Tables
variable {owner : String}

theorem ForeignKept.of_eq {workers workers' : WorkerTable Json} (h : workers' = workers) :
    ForeignKept owner workers workers' := by
  rw [h]
  exact fun _ => rfl

theorem ForeignKept.trans {a b c : WorkerTable Json} (hab : ForeignKept owner a b)
    (hbc : ForeignKept owner b c) : ForeignKept owner a c :=
  fun id => (hbc id).trans (hab id)

theorem filter_foreign_of_own {worker : Worker Json} (h : worker.ownerUserId = some owner) :
    (some worker).filter (foreign owner) = none := by
  simp [foreign, h]

/-- A row of the user is rewritten and stays the user's. -/
theorem foreignKept_modify {workers : WorkerTable Json} {id : String}
    {f : Worker Json → Worker Json} (hf : ∀ worker, (f worker).id = worker.id)
    (hown : ∀ worker, workers.get id = some worker →
      worker.ownerUserId = some owner ∧ (f worker).ownerUserId = some owner) :
    ForeignKept owner workers (workers.modify id f hf) := by
  intro j
  rw [Table.get_modify]
  split
  next hj =>
    subst hj
    cases hget : workers.get j with
    | none => rfl
    | some worker =>
      obtain ⟨hbefore, hafter⟩ := hown worker hget
      rw [Option.map_some, filter_foreign_of_own hafter, filter_foreign_of_own hbefore]
  next => rfl

theorem registerWorker_foreignKept [EmptyCollection Json] {now : Time} {workers : WorkerTable Json}
    {req : WorkerService.Registration Json} {r : WorkerTable Json × Worker Json}
    (h : WorkerService.registerWorker now workers req = .ok r)
    (howner : req.ownerUserId = some owner) : ForeignKept owner workers r.1 := by
  rcases WorkerService.registerWorker_ok_iff.1 h with ⟨hnew, rfl⟩ | ⟨worker, hget, hcheck, rfl⟩
  · intro id
    rw [Table.get_insertNew]
    split
    next hid =>
      rw [hid, hnew]
      exact filter_foreign_of_own howner
    next => rfl
  · refine foreignKept_modify (WorkerService.registerRow_id req now) fun found hfound => ?_
    refine ⟨?_, howner⟩
    rw [hget, Option.some.injEq] at hfound
    subst hfound
    rcases WorkerService.checkOwner_ok_iff.1 hcheck with hnone | hsame
    · rw [howner] at hnone
      cases hnone
    · rw [hsame, howner]

/-- What a sweep leaves claimed it has not touched. -/
theorem get_of_swept {taskTypes : List String} {now : Time} {tasks : TaskTable Json}
    {id workerId : String} {task : Task Json}
    (hget : (TaskService.reclaim taskTypes now tasks).get id = some task)
    (hclaimed : task.claimedBy = some workerId) : tasks.get id = some task := by
  rw [TaskService.reclaim, Table.get_mapRows] at hget
  obtain ⟨before, hbefore, rfl⟩ := Option.map_eq_some_iff.1 hget
  split at hclaimed
  next => cases hclaimed
  next hkept => rw [hbefore, if_neg hkept]

/-- A claim touches no task of a foreign worker if it is not made in the name of one. -/
theorem claimNext_foreign {now : Time} {claimToken workerId : String} {tasks : TaskTable Json}
    {taskTypes : List String} {leaseMinutes : Option Int} {r : TaskTable Json × Option (Task Json)}
    (h : TaskService.claimNext now claimToken tasks taskTypes workerId leaseMinutes = .ok r)
    {id other : String} {task : Task Json} (hget : r.1.get id = some task)
    (hclaimed : task.claimedBy = some other) (hother : other ≠ workerId) :
    tasks.get id = some task := by
  obtain ⟨-, rfl | ⟨claimed, -, -, rfl⟩⟩ := TaskService.claimNext_ok_cases h
  · exact get_of_swept hget hclaimed
  · rw [Table.get_modify] at hget
    split at hget
    next =>
      obtain ⟨before, -, rfl⟩ := Option.map_eq_some_iff.1 hget
      exact absurd (Option.some.inj hclaimed).symm hother
    next => exact get_of_swept hget hclaimed

end Tables

section Routes
variable (env : Surroundings) (caller : AuthUser) (d : Tables Json) (o : Outside)

theorem registerWorker_route [EmptyCollection Json] (req : WorkerRegisterRequest Json) :
    Serves d o (registerWorker env caller req)
      (fun _ d' _ => ∃ workers, d' = { d with workers := workers } ∧
        ∀ owner, caller.ownerUserId = some owner → ForeignKept owner d.workers workers)
      (Untouched d) := by
  refine Serves.bind (Serves.of_rethrow (registerWorker_serves d o _ _)) fun worker d' o' h => ?_
  obtain ⟨-, workers, hd, hok⟩ := h
  exact Serves.of_pure ⟨workers, hd, fun owner howner => registerWorker_foreignKept hok howner⟩

theorem workerHeartbeat_route (workerId : String) (req : WorkerHeartbeatRequest Json) :
    Serves d o (workerHeartbeat env workerId req)
      (fun _ d' _ => d' = beaten env.now (heartbeatOf workerId req) d ∧
        WorkerService.checkLoads (heartbeatOf workerId req) (d.workers.get workerId)
          (taskOf d.tasks) = .ok ())
      (Untouched d) := by
  refine Serves.bind (Serves.of_rethrow (heartbeat_serves d o _ _)) fun worker d' o' h => ?_
  obtain ⟨-, hd, hok⟩ := h
  exact Serves.of_pure ⟨hd, hok⟩

theorem claimNext_route (query : ClaimQuery) :
    Serves d o (claimNext env caller query)
      (fun _ d' _ => ∃ tasks row, d' = { d with tasks := tasks } ∧
        TaskService.claimNext env.now env.newToken d.tasks
          (PythonStrings.split query.taskTypes ',') (claimant env query.workerId)
          query.leaseMinutes = .ok (tasks, row) ∧
        ∀ owner id, caller.ownerUserId = some owner → query.workerId = some id →
          ∃ worker, d.workers.get id = some worker ∧ worker.ownerUserId = some owner)
      (Untouched d) := by
  refine Serves.bind (checkClaimant_serves caller d o query.workerId) fun _ d' o' h => ?_
  obtain ⟨rfl, rfl, hclaimant⟩ := h
  refine Serves.bind (claimNext_serves d' o' _ _ _ _ _) fun row d'' o'' h => ?_
  obtain ⟨-, tasks, hd, hok⟩ := h
  exact Serves.of_pure ⟨tasks, row, hd, hok, hclaimant⟩

end Routes

/-- What a guarded route leaves: the tables before the guard, those behind it, or what the
route makes of them. -/
theorem endpoint_stored {α : Type} {guard : Program Json AuthUser} (input : Input α)
    (valid : α → Bool) (route : AuthUser → α → Program Json (Reply Json)) {caller : AuthUser}
    {s s₁ : Session (Tables Json) Outside} {Q : α → Tables Json → Prop}
    (hguard : runFrom guard s = (.ok caller, s₁)) (hclean : Clean s₁.stored s₁.outside s₁)
    (hroute : ∀ value, Serves s₁.stored s₁.outside (route caller value) (fun _ d' _ => Q value d')
      (Untouched s₁.stored)) :
    let stored := (runFrom (endpoint guard input valid route) s).2.stored
    stored = s.stored ∨ stored = s₁.stored ∨
      ∃ value, input = .given value ∧ valid value = true ∧ Q value stored := by
  cases input with
  | unreadable => exact .inl rfl
  | mistyped =>
    refine .inr (.inl ?_)
    rw [endpoint, runFrom_bind_ok hguard]
    rfl
  | given value =>
    right
    rw [endpoint, runFrom_bind_ok hguard]
    cases hvalid : valid value with
    | false => exact .inl rfl
    | true =>
      refine ((hroute value).stored hclean).imp_right fun h => ?_
      obtain ⟨_, hq⟩ := h
      exact ⟨value, rfl, hvalid, hq⟩

section Steps
variable [EmptyCollection Json] {api : Api Json} {owner : String} {s t : Server Json}
  {a : Asked Json}

theorem step_inv (h : step api owner s a = some t) :
    workerRequest a.request.route = true ∧ keyUserOf api s a = some owner ∧ t = after api s a := by
  unfold step at h
  split at h
  next hc => exact ⟨hc.1, hc.2, (Option.some.inj h).symm⟩
  next => cases h

omit [EmptyCollection Json] in
/-- The guard has let in a key of the user, and has touched the key table at most. -/
theorem guarded_of_keyUser (h : keyUserOf api s a = some owner) :
    ∃ caller s₁, guarded api s a = (.ok caller, s₁) ∧ caller.ownerUserId = some owner ∧
      s₁.stored.workers = s.tables.workers ∧ s₁.stored.tasks = s.tables.tasks ∧
      Clean s₁.stored s₁.outside s₁ := by
  rcases hg : guarded api s a with ⟨e | caller, s₁⟩
  · simp [keyUserOf, hg] at h
  · obtain ⟨⟨answers, k, -, hd, -⟩, hclean⟩ := (requireWorker_serves api a.env s.tables s.outside
      a.request.apiKey).ok (opened_clean _ a.env.refusals _) hg
    refine ⟨caller, s₁, rfl, by simpa [keyUserOf, hg] using h, ?_, ?_, hclean⟩
    · rw [hd]
    · rw [hd]

/-- A registration of the user's key keeps the rows of the others. -/
theorem registration_keeps (howner : keyUserOf api s a = some owner)
    {input : Input (WorkerRegisterRequest Json)}
    (hroute : a.request.route = .registerWorker input) :
    ForeignKept owner s.tables.workers (after api s a).tables.workers := by
  obtain ⟨caller, s₁, hg, hcaller, hworkers, -, hclean⟩ := guarded_of_keyUser howner
  simp only [after, serve, handle, hroute]
  have hserves := fun req => registerWorker_route a.env caller s₁.stored s₁.outside req
  rcases endpoint_stored input WorkerRegisterRequest.valid
    (fun caller req => registerWorker a.env caller req) hg hclean hserves with
    h | h | ⟨req, -, -, workers, h, hkept⟩
  · exact ForeignKept.of_eq (by rw [h]; rfl)
  · exact ForeignKept.of_eq (by rw [h, hworkers])
  · rw [h, ← hworkers]
    exact hkept owner hcaller

/-- A heartbeat keeps the rows of the others if it names a worker of the user. -/
theorem heartbeat_keeps (howner : keyUserOf api s a = some owner) {workerId : String}
    {input : Input (WorkerHeartbeatRequest Json)}
    (hroute : a.request.route = .workerHeartbeat workerId input)
    (hown : heartbeatOwn api owner s a = true) :
    ForeignKept owner s.tables.workers (after api s a).tables.workers := by
  obtain ⟨caller, s₁, hg, hcaller, hworkers, htasks, hclean⟩ := guarded_of_keyUser howner
  simp only [after, serve, handle, hroute]
  have hserves := fun req =>
    workerHeartbeat_route a.env s₁.stored s₁.outside workerId req
  rcases endpoint_stored input (WorkerHeartbeatRequest.valid api.dumps)
    (fun _ req => workerHeartbeat a.env workerId req) hg hclean hserves with
    h | h | ⟨req, rfl, hvalid, h, hchecks⟩
  · exact ForeignKept.of_eq (by rw [h]; rfl)
  · exact ForeignKept.of_eq (by rw [h, hworkers])
  · rw [h]
    rw [hworkers, htasks] at hchecks
    simp only [heartbeatOwn, hroute, hvalid, hchecks, Except.toBool, Bool.not_true,
      Bool.false_or] at hown
    simp only [beaten, hworkers]
    refine foreignKept_modify _ fun worker hget => ?_
    change s.tables.workers.get workerId = some worker at hget
    have hsame : worker.ownerUserId = some owner := by simpa [hget, foreign] using hown
    exact ⟨hsame, hsame⟩

/-- A claim writes no worker row, and no task that is claimed for a worker of another. -/
theorem claim_keeps (howner : keyUserOf api s a = some owner) {input : Input ClaimQuery}
    (hroute : a.request.route = .claimNext input) (hfree : fallbackFree s a = true) :
    (after api s a).tables.workers = s.tables.workers ∧
      ForeignClaimsKept owner s.tables (after api s a).tables := by
  obtain ⟨caller, s₁, hg, hcaller, hworkers, htasks, hclean⟩ := guarded_of_keyUser howner
  simp only [after, serve, handle, hroute]
  have hserves := fun query => claimNext_route a.env caller s₁.stored s₁.outside query
  rcases endpoint_stored input ClaimQuery.valid (claimNext a.env) hg hclean hserves with
    h | h | ⟨query, rfl, -, tasks, row, h, hclaim, hclaimant⟩
  · rw [h]
    exact ⟨rfl, fun _ _ _ _ hget _ _ _ => hget⟩
  · rw [h, hworkers]
    exact ⟨rfl, fun _ _ _ _ hget _ _ _ => htasks ▸ hget⟩
  · rw [h]
    refine ⟨hworkers, fun id task other worker hget hclaimed hother hforeign => ?_⟩
    rw [← htasks]
    refine claimNext_foreign hclaim hget hclaimed ?_
    rintro rfl
    rcases claimant_cases a.env query.workerId with hdrawn | hnamed
    · rw [hdrawn] at hother
      simp [fallbackFree, hroute, hother] at hfree
    · obtain ⟨claiming, hget', hown⟩ := hclaimant owner _ hcaller hnamed
      rw [hworkers, hother, Option.some.injEq] at hget'
      subst hget'
      simp [foreign, hown] at hforeign

/-- One request of the user keeps the rows of the others. -/
theorem step_foreignKept (h : step api owner s a = some t) (hfree : fallbackFree s a = true)
    (hown : heartbeatOwn api owner s a = true) :
    ForeignKept owner s.tables.workers t.tables.workers := by
  obtain ⟨hworker, howner, rfl⟩ := step_inv h
  cases hroute : a.request.route with
  | registerWorker input => exact registration_keeps howner hroute
  | workerHeartbeat workerId input => exact heartbeat_keeps howner hroute hown
  | claimNext input => exact ForeignKept.of_eq (claim_keeps howner hroute hfree).1
  | _ => simp [workerRequest, hroute] at hworker

theorem step_claimsOwn (h : step api owner s a = some t) (hfree : fallbackFree s a = true) :
    ClaimsOwn api owner s a := by
  intro input hroute
  exact (claim_keeps (step_inv h).2.1 hroute hfree).2

end Steps

/-- In every state of the run the rows of other owners are as they were at its start, and no
claim of it is set for a worker of another owner. -/
def Isolated [EmptyCollection Json] (api : Api Json) (owner : String) (s : Server Json)
    (asked : List (Asked Json)) : Prop :=
  Throughout (step api owner) (fun t => ForeignKept owner s.tables.workers t.tables.workers)
      s asked ∧
    Along (step api owner) (ClaimsOwn api owner) s asked

/-- In a run of one user's keys whose accepted heartbeats name workers of that user, no row
of another owner changes and no claim is set for a worker of another. -/
theorem foreign_rows_isolated [EmptyCollection Json] (api : Api Json) (owner : String)
    (s : Server Json) (asked : List (Asked Json))
    (hfree : Along (step api owner) (fun s a => fallbackFree s a = true) s asked)
    (hown : Along (step api owner) (fun s a => heartbeatOwn api owner s a = true) s asked) :
    Isolated api owner s asked := by
  constructor
  · refine throughout_of_along ?_ (ForeignKept.of_eq rfl) (hfree.and hown)
    intro u a t hu hmet h
    exact hu.trans (step_foreignKept h hmet.1 hmet.2)
  · refine Along.imp (I := fun _ => True) (fun _ _ _ _ _ _ => trivial) ?_ trivial hfree
    intro u a t _ hmet h
    exact step_claimsOwn h hmet

section Runs

/-- The digest of the key below. -/
def digestOf (rawKey : String) : String :=
  if rawKey = "tqw_4gZ1" then "17079d20de8794c2e575ebccf2b11a9a3995397bfefc45c5775655d10383ba63"
  else ""

/-- Sign-in is on, and workers that bring no key are still let in. -/
def deployment : Api (List ℕ) where
  sha256 := digestOf
  casefold := PythonStrings.lower
  dumps _ := "{}"
  auth := {
    authEnabled := true
    authAdminEmails := "admin@example.org"
    supabasePublishableKey := "publishable" }

def userId : String := "7d9f2c1e-5b3a-4c8d-9e0f-1a2b3c4d5e6f"

def surroundings (clock : Time) : Surroundings where
  profiles id := if id = userId then some "approved" else none
  identity _ := .user userId "user@example.org"
  cacheNow := clock
  dbNow := clock
  now := clock
  createdAt := clock
  newId := "0b6c5a4e-3d2f-4b1a-8c9d-7e6f5a4b3c2d"
  newToken := "4gZ1"
  newSuffix := "0b6c5a4e"
  upload := ⟨.ok, true⟩
  deletions _ := ⟨.ok, true⟩
  refusals := []

def asks (clock : Time) (apiKey : Option String) (route : Route (List ℕ)) : Asked (List ℕ) :=
  ⟨surroundings clock, { apiKey := apiKey, credentials := none, route := route }⟩

def registers (clock : Time) (apiKey : Option String) (workerId sessionId : String) :
    Asked (List ℕ) :=
  asks clock apiKey (.registerWorker (.given {
    workerId := workerId
    name := workerId
    sessionId := sessionId
    capabilities := [] }))

def beats (clock : Time) (workerId sessionId : String) : Asked (List ℕ) :=
  asks clock (some "tqw_4gZ1")
    (.workerHeartbeat workerId (.given { sessionId := sessionId, state := .idle }))

/-- The user creates a key, and the operator's worker registers without one. -/
def beforehand : List (Asked (List ℕ)) :=
  [⟨surroundings 1, {
      apiKey := none
      credentials := some ⟨"Bearer", "token"⟩
      route := .createWorkerKey (.given ⟨"Laptop"⟩) }⟩,
    registers 2 none "admin-laptop" "session-1"]

def emptyServer : Server (List ℕ) :=
  ⟨⟨Table.empty, Table.empty, Table.empty, Table.empty⟩, ⟨emptyCache, ∅⟩⟩

/-- The server after requests of any kind from anyone. -/
def reached (asked : List (Asked (List ℕ))) : Server (List ℕ) :=
  asked.foldl (after deployment) emptyServer

/-- The user registers a worker, sends its heartbeat and claims as it. -/
def ownRequests : List (Asked (List ℕ)) :=
  [registers 3 (some "tqw_4gZ1") "laptop" "session-2", beats 4 "laptop" "session-2",
    asks 5 (some "tqw_4gZ1")
      (.claimNext (.given { taskTypes := "image", workerId := some "laptop" }))]

theorem foreign_rows_isolated_ownRequests :
    (exec (step deployment userId) (reached beforehand) ownRequests).isSome = true ∧
      Isolated deployment userId (reached beforehand) ownRequests :=
  ⟨by decide +kernel, foreign_rows_isolated deployment userId (reached beforehand) ownRequests
    (by decide +kernel) (by decide +kernel)⟩

/-- The user's key sends a heartbeat for the operator's worker, with the session of its row. -/
theorem foreign_rows_not_isolated :
    ¬∀ (beforehand asked : List (Asked (List ℕ))) (owner : String),
      Along (step deployment owner) (fun s a => fallbackFree s a = true) (reached beforehand)
          asked →
        Isolated deployment owner (reached beforehand) asked := by
  intro h
  have hrun := (h beforehand [beats 3 "admin-laptop" "session-1"] userId (by decide +kernel)).1
  have hstep : step deployment userId (reached beforehand) (beats 3 "admin-laptop" "session-1") =
      some (after deployment (reached beforehand) (beats 3 "admin-laptop" "session-1")) :=
    if_pos (by decide +kernel)
  have hkept := ((throughout_cons_of_step hstep []).1 hrun).2.head
  exact absurd (hkept "admin-laptop") (by decide +kernel)

end Runs

end TaskQueue.OwnerIsolation

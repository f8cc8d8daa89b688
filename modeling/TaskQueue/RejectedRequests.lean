import TaskQueue.Routes

/-!
# Rejected requests change nothing

Whatever a service has executed or changed on its session before its last check, nothing
of it is stored when the check fails: every exception is raised before the commit, and a
session that is closed without one is rolled back. Only the guard of the worker routes
commits before the route runs, the time at which the presented key was last used.
-/

namespace TaskQueue.RejectedRequests
open KeyedTables Sessions KeyConfiguration Authentication Schemas SessionServices Routes
open WorkerKeyService (KeyTable WorkerKey Profiles)

variable {Json : Type}

/-- The row, without the time of its last use if the presented key is the row's. -/
def withoutUse (sha256 : String → String) (apiKey : Option String) (key : WorkerKey) : WorkerKey :=
  if apiKey.any fun rawKey => key.keyHash = sha256 rawKey then { key with lastUsedAt := none }
  else key

/-- The key tables agree but for the last use of the presented key. -/
def KeysKept (sha256 : String → String) (apiKey : Option String) (keys keys' : KeyTable) : Prop :=
  keys'.rows.map (withoutUse sha256 apiKey) = keys.rows.map (withoutUse sha256 apiKey)

/-- All tables agree but for the last use of the presented key. -/
structure Kept (sha256 : String → String) (apiKey : Option String) (t t' : Tables Json) :
    Prop where
  tasks : t'.tasks = t.tasks
  workers : t'.workers = t.workers
  artifacts : t'.artifacts = t.artifacts
  keys : KeysKept sha256 apiKey t.keys t'.keys

section Guards
variable {sha256 : String → String}

theorem Kept.refl (apiKey : Option String) (t : Tables Json) :
    Kept sha256 apiKey t t :=
  ⟨rfl, rfl, rfl, rfl⟩

theorem withoutUse_touchRow {rawKey : String} {key : WorkerKey}
    (h : key.keyHash = sha256 rawKey) (now : Time) :
    withoutUse sha256 (some rawKey) (WorkerKeyService.touchRow now key) =
      withoutUse sha256 (some rawKey) key := by
  obtain ⟨used, hused⟩ := WorkerKeyService.touchRow_eq now key
  rw [hused]
  simp [withoutUse, h]

theorem kept_of_leaves {α : Type} {apiKey : Option String} {t t' : Tables Json} {o o' : Outside}
    {left : KeyState × Except HttpError α} {r : Except HttpError α}
    (h : Leaves t o left r t' o') (hkeys : KeysKept sha256 apiKey t.keys left.1.keys) :
    Kept sha256 apiKey t t' := by
  obtain ⟨k, rfl, rfl, -⟩ := h
  exact ⟨rfl, rfl, rfl, hkeys⟩

variable (sha256)

/-- The lookup of a key touches the row with its hash only. -/
theorem findActiveKey_kept (dbNow : Time) (profiles : Profiles) (keys : KeyTable)
    (rawKey : String) :
    KeysKept sha256 (some rawKey) keys
      (WorkerKeyService.findActiveKey sha256 dbNow profiles keys rawKey).1 := by
  unfold WorkerKeyService.findActiveKey
  cases hmatch : WorkerKeyService.matchKey profiles keys (sha256 rawKey) with
  | none => rfl
  | some row =>
    obtain ⟨hget, hhash, -⟩ := WorkerKeyService.matchKey_spec hmatch
    simp only [KeysKept, WorkerKeyService.touch, Table.modify, Table.rows_mapRows, List.map_map]
    refine List.map_congr_left fun key hkey => ?_
    by_cases hid : key.id = row.id
    · have hrow : key = row :=
        Option.some.inj ((Table.get_of_mem hkey).symm.trans (hid ▸ hget))
      rw [Function.comp_apply, if_pos hid]
      exact withoutUse_touchRow (hrow ▸ hhash) dbNow
    · rw [Function.comp_apply, if_neg hid]

theorem userWorkerKey_kept (profiles : Profiles) (now dbNow : Time) (answers : Bool)
    (k : KeyState) (rawKey : String) :
    KeysKept sha256 (some rawKey) k.keys
      (Authentication.userWorkerKey sha256 profiles now dbNow answers k rawKey).1.keys := by
  have hfind := findActiveKey_kept sha256 dbNow profiles k.keys rawKey
  unfold Authentication.userWorkerKey
  dsimp only
  cases cacheHit k.cache now (sha256 rawKey) with
  | some owner => rfl
  | none =>
    cases answers with
    | false => rfl
    | true =>
      rcases hfound : WorkerKeyService.findActiveKey sha256 dbNow profiles k.keys rawKey
        with ⟨keys, _ | owner⟩
      · rwa [hfound] at hfind
      · rwa [hfound] at hfind

/-- `require_worker` keeps all of the key table but the last use of the presented key. -/
theorem requireWorker_kept (cfg : AuthSettings) (profiles : Profiles) (now dbNow : Time)
    (answers : Bool) (k : KeyState) (apiKey : Option String) :
    KeysKept sha256 apiKey k.keys
      (Authentication.requireWorker sha256 cfg profiles now dbNow answers k apiKey).1.keys := by
  unfold Authentication.requireWorker
  cases hkey : apiKey.filter (· ≠ "") with
  | none => rfl
  | some rawKey =>
    obtain ⟨rfl, -⟩ := Option.filter_eq_some_iff.1 hkey
    dsimp only
    cases nameForKey sha256 rawKey (workerKeyHashes cfg) with
    | some name => rfl
    | none =>
      have hlookup := userWorkerKey_kept sha256 profiles now dbNow answers k rawKey
      rcases hleft : Authentication.userWorkerKey sha256 profiles now dbNow answers k rawKey
        with ⟨k', _ | _ | owner⟩
      · rwa [hleft] at hlookup
      · rwa [hleft] at hlookup
      · rwa [hleft] at hlookup

end Guards

section Requests
variable {α : Type} {sha256 : String → String} {apiKey : Option String} {d : Tables Json}
  {o : Outside}

/-- A guard leaves the tables as they were but for the last use of the presented key. -/
abbrev Guards (sha256 : String → String) (apiKey : Option String)
    (guard : Program Json AuthUser) : Prop :=
  ∀ d o, Serves d o guard (fun _ d' _ => Kept sha256 apiKey d d')
    fun _ d' _ => Kept sha256 apiKey d d'

/-- A route raises only with the tables as it found them. -/
abbrev Atomic (m : Program Json α) : Prop := ∀ d o, Serves d o m (fun _ _ _ => True) (Untouched d)

theorem guards_of_serves {guard : Program Json AuthUser}
    (h : ∀ d o, Serves d o guard (fun _ d' o' => d' = d ∧ o' = o) (Untouched d)) :
    Guards sha256 apiKey guard := by
  intro d o
  refine (h d o).mono ?_ ?_
  · rintro _ _ _ ⟨rfl, -⟩
    exact Kept.refl apiKey _
  · rintro _ _ _ rfl
    exact Kept.refl apiKey _

theorem guards_requireWorker (api : Api Json) (env : Surroundings) (apiKey : Option String) :
    Guards api.sha256 apiKey (requireWorker api env apiKey) := by
  intro d o
  refine (requireWorker_serves api env d o apiKey).mono ?_ ?_
  · rintro user d' o' ⟨answers, h⟩
    exact kept_of_leaves h (requireWorker_kept _ _ _ _ _ _ _ _)
  · rintro e d' o' ⟨answers, error, rfl, h⟩
    exact kept_of_leaves h (requireWorker_kept _ _ _ _ _ _ _ _)

/-- A guarded route: what it finds is what the guard left. -/
theorem serves_guarded {guard : Program Json AuthUser} {route : AuthUser → Program Json α}
    (hguard : Guards sha256 apiKey guard) (hroute : ∀ user, Atomic (route user)) :
    Serves d o (guard >>= route) (fun _ _ _ => True) fun _ d' _ => Kept sha256 apiKey d d' := by
  refine Serves.bind (hguard d o) fun user d' o' hkept => ?_
  refine (hroute user d' o').mono (fun _ _ _ h => h) ?_
  rintro _ _ _ rfl
  exact hkept

theorem serves_endpoint {guard : Program Json AuthUser} {input : Input α} {valid : α → Bool}
    {route : AuthUser → α → Program Json (Reply Json)} (hguard : Guards sha256 apiKey guard)
    (hroute : ∀ user value, Atomic (route user value)) :
    Serves d o (endpoint guard input valid route) (fun _ _ _ => True)
      fun _ d' _ => Kept sha256 apiKey d d' := by
  cases input with
  | unreadable => exact Serves.of_throw (Kept.refl apiKey d)
  | mistyped => exact serves_guarded hguard fun _ _ _ => Serves.of_throw rfl
  | given value =>
    refine serves_guarded hguard fun user d o => Runs.of_ite (fun _ => hroute user value d o) ?_
    exact fun _ => Serves.of_throw rfl

end Requests

section Routes
variable (env : Surroundings) (caller : AuthUser)

theorem Atomic.of_serves {α : Type} {m : Program Json α}
    {Q : Tables Json → Outside → α → Tables Json → Outside → Prop}
    (h : ∀ d o, Serves d o m (Q d o) (Untouched d)) : Atomic m :=
  fun d o => (h d o).mono (fun _ _ _ _ => trivial) fun _ _ _ h => h

theorem Atomic.rethrow {α : Type} {m : Program Json α} (h : Atomic m)
    (convert : Raised → Raised) : Atomic (rethrow convert m) :=
  fun d o => Serves.of_rethrow (h d o)

/-- What a route does with the value of its service cannot fail. -/
theorem Atomic.reply {α β : Type} {m : Program Json α} (h : Atomic m) (f : α → β) :
    Atomic (m >>= fun a => pure (f a)) :=
  fun d o => Serves.bind (h d o) fun _ _ _ _ => Serves.of_pure trivial

theorem registerWorker_atomic [EmptyCollection Json] (req : WorkerRegisterRequest Json) :
    Atomic (registerWorker env caller req) :=
  ((Atomic.of_serves fun d o => registerWorker_serves d o _ _).rethrow idTaken).reply _

theorem workerHeartbeat_atomic (workerId : String) (req : WorkerHeartbeatRequest Json) :
    Atomic (workerHeartbeat env workerId req) :=
  ((Atomic.of_serves fun d o => heartbeat_serves d o _ _).rethrow heartbeatRefused).reply _

theorem submitTask_atomic (cfg : Settings) (req : TaskSubmitRequest Json) :
    Atomic (submitTask env cfg req) :=
  (Atomic.of_serves fun d o => submitTask_serves d o _ _ _ _ _ _ _ _).reply _

theorem claimNext_atomic (query : ClaimQuery) :
    Atomic (claimNext env caller query : Program Json (Reply Json)) := by
  intro d o
  refine Serves.bind (checkClaimant_serves caller d o query.workerId) fun _ d' o' h => ?_
  obtain ⟨rfl, rfl, -⟩ := h
  exact (Atomic.of_serves fun d o => claimNext_serves d o _ _ _ _ _).reply _ d' o'

theorem getTask_atomic (taskId : String) :
    Atomic (getTask taskId : Program Json (Reply Json)) :=
  ((Atomic.of_serves fun d o => getTask_serves d o _).rethrow (taskRefused 404)).reply _

theorem completeTask_atomic (taskId : String) (req : TaskCompleteRequest Json) :
    Atomic (completeTask env taskId req) :=
  ((Atomic.of_serves fun d o => settleTask_serves d o _ _ _ _).rethrow (taskRefused 409)).reply _

theorem failTask_atomic (taskId : String) (req : TaskFailRequest) :
    Atomic (failTask env taskId req : Program Json (Reply Json)) :=
  ((Atomic.of_serves fun d o => settleTask_serves d o _ _ _ _).rethrow (taskRefused 409)).reply _

theorem uploadArtifact_atomic (retentionHours : Int) (file : UploadFile) :
    Atomic (uploadArtifact env retentionHours file : Program Json (Reply Json)) :=
  (Atomic.of_serves fun d o => uploadArtifact_serves d o _ _ _ _ _ _ _).reply _

theorem getArtifact_atomic (artifactId : String) :
    Atomic (getArtifact artifactId : Program Json (Reply Json)) :=
  ((Atomic.of_serves fun d o => getArtifact_serves d o _).rethrow artifactMissing).reply _

/-- A deletion that fails partway has not touched the row. -/
theorem deleteArtifact_atomic (artifactId : String) :
    Atomic (deleteArtifact env artifactId : Program Json (Reply Json)) :=
  ((Atomic.of_serves fun d o => deleteArtifactFiles_serves d o _ _).rethrow artifactMissing).reply _

theorem listWorkerKeys_atomic : Atomic (listWorkerKeys caller : Program Json (Reply Json)) :=
  (Atomic.of_serves fun d o => listKeys_serves d o _).reply _

theorem createWorkerKey_atomic (sha256 : String → String) (req : WorkerKeyCreateRequest) :
    Atomic (createWorkerKey env caller sha256 req : Program Json (Reply Json)) :=
  ((Atomic.of_serves fun d o => createKey_serves sha256 d o _ _ _ _ _).rethrow keyLimit).reply _

theorem revokeWorkerKey_atomic (keyId : String) :
    Atomic (revokeWorkerKey env caller keyId : Program Json (Reply Json)) :=
  ((Atomic.of_serves fun d o => revokeKey_serves d o _ _ _).rethrow keyMissing).reply _

end Routes

/-- Every request raises with the tables kept. -/
theorem handle_serves [EmptyCollection Json] (api : Api Json) (env : Surroundings)
    (d : Tables Json) (o : Outside) (req : Request Json) :
    Serves d o (handle api env req) (fun _ _ _ => True)
      fun _ d' _ => Kept api.sha256 req.apiKey d d' := by
  have hworker := guards_requireWorker api env req.apiKey
  have hpure : ∀ x : Except HttpError AuthUser, Guards api.sha256 req.apiKey
      (checked .http x : Program Json AuthUser) :=
    fun x => guards_of_serves fun d o => checked_serves d o _ x
  have happroved : Guards api.sha256 req.apiKey (requireApprovedUser api env req.credentials) :=
    guards_of_serves fun d o => requireApprovedUser_serves api env d o _
  unfold handle
  cases req.route with
  | registerWorker input =>
    exact serves_endpoint hworker fun caller => registerWorker_atomic env caller
  | workerHeartbeat workerId input =>
    exact serves_endpoint hworker fun _ => workerHeartbeat_atomic env workerId
  | listWorkers =>
    exact serves_guarded (hpure _) fun _ => (Atomic.of_serves fun d o => load_serves d o _).reply _
  | submitTask input => exact serves_endpoint (hpure _) fun _ => submitTask_atomic env api.queue
  | listTasks status taskType =>
    exact serves_guarded (hpure _) fun _ => (Atomic.of_serves fun d o => load_serves d o _).reply _
  | claimNext input => exact serves_endpoint hworker (claimNext_atomic env)
  | getTask taskId => exact serves_guarded (hpure _) fun _ => getTask_atomic taskId
  | completeTask taskId input =>
    exact serves_endpoint hworker fun _ => completeTask_atomic env taskId
  | failTask taskId input => exact serves_endpoint hworker fun _ => failTask_atomic env taskId
  | uploadArtifact input =>
    exact serves_endpoint hworker fun _ => uploadArtifact_atomic env api.artifactRetentionHours
  | getArtifact artifactId => exact serves_guarded (hpure _) fun _ => getArtifact_atomic artifactId
  | deleteArtifact artifactId =>
    exact serves_guarded (hpure _) fun _ => deleteArtifact_atomic env artifactId
  | listWorkerKeys => exact serves_guarded happroved (listWorkerKeys_atomic)
  | createWorkerKey input =>
    exact serves_endpoint happroved fun user => createWorkerKey_atomic env user api.sha256
  | revokeWorkerKey input => exact serves_endpoint happroved (revokeWorkerKey_atomic env)

theorem reply_status_lt (reply : Reply Json) : reply.status < 400 := by
  unfold Reply.status
  split <;> decide

/-- A response with an error status leaves the tables as the request found them, but for
the last use of the presented key. -/
theorem rejected_request_kept [EmptyCollection Json] (api : Api Json) (env : Surroundings)
    (t : Tables Json) (o : Outside) (req : Request Json)
    (hstatus : 400 ≤ status (serve api env t o req).1) :
    Kept api.sha256 req.apiKey t (serve api env t o req).2.stored := by
  rcases hserved : serve api env t o req with ⟨e | reply, s⟩
  · exact (handle_serves api env t o req).error (opened_clean t env.refusals o) hserved
  · rw [hserved] at hstatus
    exact absurd hstatus (Nat.not_le.2 (reply_status_lt reply))

/-- The digest of the key below. -/
def digestOf (rawKey : String) : String :=
  if rawKey = "tqw_1" then "14eeae7eb8e7e8cc4149205d3029d376eb7ec84dc70830724e12f33e04f90098"
  else ""

/-- A worker and the key that registered it. -/
def oneWorker : Tables (List ℕ) where
  tasks := Table.empty
  workers := ⟨[⟨"box", "Box", "session-1", [], [], none, .idle, none, 0, 0, 0, some "user-1"⟩],
    by decide⟩
  artifacts := Table.empty
  keys := ⟨[⟨"key-1", "user-1", "Laptop", digestOf "tqw_1", "tqw_1", 0, none, none⟩], by decide⟩

def plainApi : Api (List ℕ) where
  sha256 := digestOf
  casefold := id
  dumps _ := ""
  auth := {}

def surroundings : Surroundings where
  profiles _ := some "approved"
  identity _ := .unreachable
  cacheNow := 7
  dbNow := 7
  now := 7
  createdAt := 7
  newId := "00000000-0000-4000-8000-000000000001"
  newToken := "token"
  newSuffix := "0000000a"
  upload := ⟨.ok, true⟩
  deletions _ := ⟨.ok, true⟩
  refusals := []

/-- A heartbeat that names a task which does not exist. -/
def busyWithLostTask : Request (List ℕ) where
  apiKey := some "tqw_1"
  credentials := none
  route := .workerHeartbeat "box" (.given {
    sessionId := "session-1"
    state := .busy
    currentTaskId := some "00000000-0000-4000-8000-000000000002" })

/-- It is refused when the worker is already changed in the session, and the key of its
sender has been used. -/
theorem rejected_request_kept_busyWithLostTask :
    let left := (serve plainApi surroundings oneWorker ⟨emptyCache, ∅⟩ busyWithLostTask).2.stored
    Kept digestOf (some "tqw_1") oneWorker left ∧
      left.keys.rows.map WorkerKey.lastUsedAt = [some 7] :=
  ⟨rejected_request_kept plainApi surroundings oneWorker ⟨emptyCache, ∅⟩ busyWithLostTask
    (by decide +kernel), by decide +kernel⟩

end TaskQueue.RejectedRequests

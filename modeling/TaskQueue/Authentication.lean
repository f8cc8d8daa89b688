import TaskQueue.KeyConfiguration
import TaskQueue.WorkerKeyService
import TaskQueue.Uuid

/-!
# Who is calling

The guards of `app/auth.py`. The answers of the identity service are an argument, and so
is what the database says to the lookup of a self-service key.
-/

namespace TaskQueue.Authentication
open KeyedTables PythonStrings KeyConfiguration WorkerKeyService Uuid

/-- `HTTPException`. -/
structure HttpError where
  status : ℕ
  detail : String
  deriving DecidableEq, Repr

/-- `AuthUser`, less what only the profile page shows. -/
structure AuthUser where
  id : String
  email : String
  ownerUserId : Option String := none
  deriving DecidableEq, Repr

/-- `WORKER_KEY_CACHE_SECONDS`. -/
def workerKeyCacheSeconds : Int := 60

def seconds (n : Int) : Time := n * 1000000

variable (sha256 : String → String)

/-- `_name_for_key`: the digests of a dictionary are different, so that one comparison at
most succeeds. -/
def nameForKey (rawKey : String) (configured : KeyHashes) : Option String :=
  (configured.get (sha256 rawKey)).map Prod.snd

/-- `_machine_user`. -/
def machineUser (kind name : String) : AuthUser where
  id := s!"{kind}:{name}"
  email := s!"{name}@{kind}"

/-- A header that is missing or empty. -/
def noKey (apiKey : Option String) : Bool := apiKey.all (· = "")

/-- `_require_machine_key`. -/
def requireMachineKey (cfg : AuthSettings) (kind : String) (apiKey : Option String)
    (configured : KeyHashes) : Except HttpError AuthUser :=
  match apiKey.filter (· ≠ "") with
  | some key =>
    match nameForKey sha256 key configured with
    | none => .error ⟨401, "Invalid API key"⟩
    | some name => .ok (machineUser kind name)
  | none =>
    if cfg.machineAuthRequired then .error ⟨401, "API key required"⟩
    else .ok (machineUser kind "rollout-anonymous")

/-- `require_producer`. -/
def requireProducer (cfg : AuthSettings) (apiKey : Option String) : Except HttpError AuthUser :=
  requireMachineKey sha256 cfg "producer" apiKey (serviceKeyHashes cfg)

/-- `require_producer_strict`. -/
def requireProducerStrict (cfg : AuthSettings) (apiKey : Option String) :
    Except HttpError AuthUser :=
  if noKey apiKey then .error ⟨401, "API key required"⟩
  else requireMachineKey sha256 cfg "producer" apiKey (serviceKeyHashes cfg)

/-- What the identity service says about a bearer token. -/
inductive IdentityReply
  | unreachable
  | refused (status : ℕ)
  | user (id email : String)
  | malformed

/-- The `Authorization` header. -/
structure Credentials where
  scheme : String
  token : String

/-- `_fetch_supabase_user`; a body that is no object of the expected shape ends the
request with an unhandled exception. -/
def fetchSupabaseUser (identity : String → IdentityReply) (accessToken : String) :
    Except HttpError AuthUser :=
  match identity accessToken with
  | .unreachable => .error ⟨503, "Identity service is temporarily unavailable"⟩
  | .refused status =>
    if status = 400 ∨ status = 401 ∨ status = 403 then .error ⟨401, "Authentication required"⟩
    else .error ⟨503, "Identity service is temporarily unavailable"⟩
  | .user id email => .ok { id := id, email := strip email }
  | .malformed => .error ⟨500, "Internal Server Error"⟩

/-- `current_user`; the letters of the scheme are those of ASCII. -/
def currentUser (cfg : AuthSettings) (identity : String → IdentityReply)
    (credentials : Option Credentials) : Except HttpError AuthUser :=
  if ¬cfg.authEnabled then .ok { id := "auth-disabled", email := "local-admin@localhost" }
  else match credentials with
    | none => .error ⟨401, "Authentication required"⟩
    | some credentials =>
      if lower credentials.scheme ≠ "bearer" then .error ⟨401, "Authentication required"⟩
      else fetchSupabaseUser identity credentials.token

/-- `require_admin`, with the caller that `current_user` found. -/
def requireAdmin (cfg : AuthSettings) (casefold : String → String) (user : AuthUser) :
    Except HttpError AuthUser :=
  if cfg.authEnabled ∧ casefold user.email ∉ (entries cfg.authAdminEmails).map casefold then
    .error ⟨403, "This account does not have Task Queue admin access"⟩
  else .ok user

/-- `require_admin_or_service`. -/
def requireAdminOrService (cfg : AuthSettings) (casefold : String → String)
    (identity : String → IdentityReply) (apiKey : Option String)
    (credentials : Option Credentials) : Except HttpError AuthUser :=
  match apiKey.filter (· ≠ "") with
  | some key =>
    match nameForKey sha256 key (serviceKeyHashes cfg) with
    | none => .error ⟨401, "Invalid API key"⟩
    | some name => .ok (machineUser "producer" name)
  | none => do
    if ¬cfg.authEnabled then return { id := "auth-disabled", email := "local-admin@localhost" }
    let user ← currentUser cfg identity credentials
    requireAdmin cfg casefold user

/-- `_worker_key_cache`: the owner of a digest and the moment the entry expires. -/
abbrev KeyCache := String → Option (KeyOwner × Time)

def emptyCache : KeyCache := fun _ => none

/-- The entry that answers at the given moment. -/
def cacheHit (cache : KeyCache) (now : Time) (digest : String) : Option KeyOwner :=
  match cache digest with
  | none => none
  | some (owner, expiry) => if now < expiry then some owner else none

/-- `_worker_key_cache.pop(digest, None)`. -/
def dropEntry (cache : KeyCache) (digest : String) : KeyCache := Function.update cache digest none

/-- The entry of a key that matched, counted from the time read before the lookup. -/
def storeEntry (cache : KeyCache) (digest : String) (owner : KeyOwner) (now : Time) : KeyCache :=
  Function.update cache digest (some (owner, now + seconds workerKeyCacheSeconds))

/-- The caller that `require_worker` builds for a self-service key. -/
def keyUser (owner : KeyOwner) : AuthUser where
  id := s!"worker-key:{owner.keyId}"
  email := s!"{owner.keyId}@worker-key"
  ownerUserId := some owner.userId

def invalidKey : HttpError := ⟨401, "Invalid API key"⟩
def keyCheckDown : HttpError := ⟨503, "Worker key check is temporarily unavailable"⟩

/-- What `require_worker` may write. -/
structure KeyState where
  cache : KeyCache
  keys : KeyTable

/-- `_user_worker_key`. The database does not answer where `answers` is false; `dbNow` is
its clock. -/
def userWorkerKey (profiles : Profiles) (now dbNow : Time) (answers : Bool) (s : KeyState)
    (rawKey : String) : KeyState × Except HttpError (Option KeyOwner) :=
  let digest := sha256 rawKey
  match cacheHit s.cache now digest with
  | some owner => (s, .ok (some owner))
  | none =>
    let cache := dropEntry s.cache digest
    if answers then
      match findActiveKey sha256 dbNow profiles s.keys rawKey with
      | (keys, none) => (⟨cache, keys⟩, .ok none)
      | (keys, some owner) => (⟨storeEntry cache digest owner now, keys⟩, .ok (some owner))
    else (⟨cache, s.keys⟩, .error keyCheckDown)

/-- `require_worker`. -/
def requireWorker (cfg : AuthSettings) (profiles : Profiles) (now dbNow : Time) (answers : Bool)
    (s : KeyState) (apiKey : Option String) : KeyState × Except HttpError AuthUser :=
  match apiKey.filter (· ≠ "") with
  | none => (s, requireMachineKey sha256 cfg "worker" apiKey (workerKeyHashes cfg))
  | some key =>
    match nameForKey sha256 key (workerKeyHashes cfg) with
    | some name => (s, .ok (machineUser "worker" name))
    | none =>
      match userWorkerKey sha256 profiles now dbNow answers s key with
      | (s, .error e) => (s, .error e)
      | (s, .ok none) => (s, .error invalidKey)
      | (s, .ok (some owner)) => (s, .ok (keyUser owner))

def accountCheckDown : HttpError := ⟨503, "Account check is temporarily unavailable"⟩

/-- `_profile_status`. -/
def profileStatus (profiles : Profiles) (answers : Bool) (userId : String) :
    Except HttpError (Option String) :=
  if uuidOf userId = none then .ok none
  else match pgUuid userId with
    | none => .error accountCheckDown
    | some id => if answers then .ok (profiles id) else .error accountCheckDown

/-- `require_approved_user`, with the caller that `current_user` found. -/
def requireApprovedUser (cfg : AuthSettings) (profiles : Profiles) (answers : Bool)
    (user : AuthUser) : Except HttpError AuthUser :=
  if ¬cfg.authEnabled then .error ⟨409, "Worker keys need sign-in (AUTH_ENABLED=true)"⟩
  else do
    let status ← profileStatus profiles answers user.id
    if status ≠ some "approved" then throw ⟨403, "Your account is not approved"⟩
    return user

section Lemmas
variable {sha256}

theorem cacheHit_eq_some_iff {cache : KeyCache} {now : Time} {digest : String}
    {owner : KeyOwner} : cacheHit cache now digest = some owner ↔
      ∃ expiry, cache digest = some (owner, expiry) ∧ now < expiry := by
  unfold cacheHit
  cases h : cache digest with
  | none => simp
  | some entry =>
    obtain ⟨found, expiry⟩ := entry
    by_cases hlive : now < expiry
    · simp [hlive]
    · simp only [if_neg hlive, reduceCtorEq, Option.some.injEq, Prod.mk.injEq, false_iff]
      rintro ⟨x, ⟨-, rfl⟩, hx⟩
      exact hlive hx

/-- The caller of a machine key owns nothing. -/
theorem requireMachineKey_owner {cfg : AuthSettings} {kind : String} {apiKey : Option String}
    {configured : KeyHashes} {user : AuthUser}
    (h : requireMachineKey sha256 cfg kind apiKey configured = .ok user) :
    user.ownerUserId = none := by
  unfold requireMachineKey at h
  split at h
  · split at h <;> cases h
    rfl
  · split at h <;> cases h
    rfl

end Lemmas

end TaskQueue.Authentication

import TaskQueue.QueueRows

/-!
# The worker key service

`app/services/worker_key_service.py` on the table of worker keys. The hash function and
the profiles of the sister application are arguments, as are the key id and the random
part of a key that the source draws.
-/

namespace TaskQueue.WorkerKeyService
open KeyedTables

structure WorkerKey where
  id : String
  userId : String
  name : String
  keyHash : String
  keyPrefix : String
  createdAt : Time
  lastUsedAt : Option Time
  revokedAt : Option Time
  deriving DecidableEq

abbrev KeyTable := Table String WorkerKey WorkerKey.id

/-- `platform.profiles`: the status of each user that has a profile. -/
abbrev Profiles := String → Option String

structure KeyOwner where
  keyId : String
  userId : String
  name : String
  deriving DecidableEq

inductive WorkerKeyError
  | workerKeyLimit (message : String)
  | workerKeyNotFound (message : String)
  | integrityError
  deriving DecidableEq, Repr

/-- `KEY_PREFIX`. -/
def keyPrefix : String := "tqw_"

/-- `MAX_ACTIVE_KEYS`. -/
def maxActiveKeys : ℕ := 10

/-- The keys of a user that count against the limit. -/
def activeKeys (keys : KeyTable) (userId : String) : ℕ :=
  keys.rows.countP fun key => key.userId = userId && key.revokedAt.isNone

variable (sha256 : String → String)

/-- The row that `create_key` adds for the random text it draws. -/
def newKey (now : Time) (id userId name token : String) : WorkerKey where
  id := id
  userId := userId
  name := name
  keyHash := sha256 (keyPrefix ++ token)
  keyPrefix := String.ofList ((keyPrefix ++ token).toList.take 8)
  createdAt := now
  lastUsedAt := none
  revokedAt := none

/-- Add a row; the id is the primary key and the hash has a unique index. -/
def insertKey (keys : KeyTable) (key : WorkerKey) : Except WorkerKeyError KeyTable :=
  if h : keys.get key.id = none then
    if keys.rows.any fun other => other.keyHash = key.keyHash then .error .integrityError
    else .ok (keys.insertNew key h)
  else .error .integrityError

/-- `create_key`: the table, the new row and the raw key. -/
def createKey (now : Time) (id token : String) (keys : KeyTable) (userId name : String) :
    Except WorkerKeyError (KeyTable × WorkerKey × String) :=
  if maxActiveKeys ≤ activeKeys keys userId then
    .error (.workerKeyLimit s!"At most {maxActiveKeys} active worker keys; revoke one first")
  else do
    let keys ← insertKey keys (newKey sha256 now id userId name token)
    return (keys, newKey sha256 now id userId name token, keyPrefix ++ token)

/-- The assignment of `revoke_key`. -/
def revokeRow (now : Time) (key : WorkerKey) : WorkerKey := { key with revokedAt := some now }

/-- `revoke_key`; the key of another user looks unknown. -/
def revokeKey (now : Time) (keys : KeyTable) (userId keyId : String) :
    Except WorkerKeyError (KeyTable × WorkerKey) :=
  match keys.get keyId with
  | none => .error (.workerKeyNotFound "Worker key not found")
  | some key =>
    if key.userId ≠ userId then .error (.workerKeyNotFound "Worker key not found")
    else if key.revokedAt = none then
      .ok (keys.modify keyId (revokeRow now) fun _ => rfl, revokeRow now key)
    else .ok (keys, key)

/-- The key is not revoked and its owner is approved. -/
def active (profiles : Profiles) (key : WorkerKey) : Bool :=
  key.revokedAt.isNone && profiles key.userId == some "approved"

/-- `_MATCH`. -/
def matchKey (profiles : Profiles) (keys : KeyTable) (digest : String) : Option WorkerKey :=
  keys.rows.find? fun key => key.keyHash = digest && active profiles key

/-- The `SET` clause of `_TOUCH`, for rows that meet its `WHERE` clause. -/
def touchRow (now : Time) (key : WorkerKey) : WorkerKey :=
  if key.lastUsedAt.all fun used => used < now - minutes 1 then { key with lastUsedAt := some now }
  else key

/-- `_TOUCH`. -/
def touch (now : Time) (keys : KeyTable) (keyId : String) : KeyTable :=
  keys.modify keyId (touchRow now) fun key => by unfold touchRow; split <;> rfl

def WorkerKey.owner (key : WorkerKey) : KeyOwner := ⟨key.id, key.userId, key.name⟩

/-- `find_active_key`. -/
def findActiveKey (now : Time) (profiles : Profiles) (keys : KeyTable) (rawKey : String) :
    KeyTable × Option KeyOwner :=
  match matchKey profiles keys (sha256 rawKey) with
  | none => (keys, none)
  | some key => (touch now keys key.id, some key.owner)

variable {sha256}

/-- An accepted row is a new one. -/
theorem insertKey_ok {keys keys' : KeyTable} {key : WorkerKey}
    (h : insertKey keys key = .ok keys') :
    ∃ hnew : keys.get key.id = none, keys' = keys.insertNew key hnew := by
  unfold insertKey at h
  split at h
  next hnew =>
    split at h
    · cases h
    · cases h
      exact ⟨hnew, rfl⟩
  next => cases h

theorem active_iff {profiles : Profiles} {key : WorkerKey} :
    active profiles key = true ↔
      key.revokedAt = none ∧ profiles key.userId = some "approved" := by
  simp [active]

/-- What a match says about its row. -/
theorem matchKey_spec {profiles : Profiles} {keys : KeyTable} {digest : String}
    {key : WorkerKey} (h : matchKey profiles keys digest = some key) :
    keys.get key.id = some key ∧ key.keyHash = digest ∧ active profiles key = true := by
  have hfound := List.find?_some h
  rw [Bool.and_eq_true, decide_eq_true_eq] at hfound
  exact ⟨Table.get_of_mem (List.mem_of_find?_eq_some h), hfound.1, hfound.2⟩

/-- Nothing matches exactly if no active key has the digest. -/
theorem matchKey_eq_none_iff {profiles : Profiles} {keys : KeyTable} {digest : String} :
    matchKey profiles keys digest = none ↔
      ∀ key ∈ keys.rows, key.keyHash = digest → active profiles key = false := by
  simp [matchKey]

/-- The touch writes one column. -/
theorem touchRow_eq (now : Time) (key : WorkerKey) :
    ∃ used, touchRow now key = { key with lastUsedAt := used } := by
  unfold touchRow
  split
  · exact ⟨_, rfl⟩
  · exact ⟨key.lastUsedAt, rfl⟩

end TaskQueue.WorkerKeyService

import TaskQueue.Authentication

/-!
# Producer keys and worker keys

A key is a producer's if its digest is configured for producers, and a worker's if its
digest is configured for workers, belongs to an active self-service key or is still
cached. The validator compares none of these with another.
-/

namespace TaskQueue.CredentialSeparation
open KeyedTables KeyConfiguration WorkerKeyService Authentication

/-- What the two kinds of guards decide on, besides the presented key. -/
structure Setting where
  sha256 : String → String
  cfg : AuthSettings
  profiles : Profiles
  state : KeyState
  now : Time
  casefold : String → String
  identity : String → IdentityReply

/-- Every hash in the table is that of a key which `create_key` has made. -/
def CreatedKeys (sha256 : String → String) (keys : KeyTable) : Prop :=
  ∀ key ∈ keys.rows, ∃ token, key.keyHash = sha256 (keyPrefix ++ token)

/-- Some producer guard accepts the key, whatever other credentials come with it. -/
def AcceptedAsProducer (a : Setting) (rawKey : String) : Prop :=
  ∃ user, requireProducer a.sha256 a.cfg (some rawKey) = .ok user ∨
    requireProducerStrict a.sha256 a.cfg (some rawKey) = .ok user ∨
    ∃ credentials, requireAdminOrService a.sha256 a.cfg a.casefold a.identity (some rawKey)
      credentials = .ok user

/-- `require_worker` accepts the key, whatever the database answers. -/
def AcceptedAsWorker (a : Setting) (rawKey : String) : Prop :=
  ∃ dbNow answers user,
    (requireWorker a.sha256 a.cfg a.profiles a.now dbNow answers a.state (some rawKey)).2 = .ok user

/-- The digest belongs to a key that a user has created and not revoked, and the user is
approved. -/
def ActiveDigest (a : Setting) (digest : String) : Prop :=
  ∃ row ∈ a.state.keys.rows, row.keyHash = digest ∧ row.revokedAt = none ∧
    a.profiles row.userId = some "approved"

/-- The digest still has an entry in the cache. -/
def CachedDigest (a : Setting) (digest : String) : Prop :=
  ∃ owner expiry, a.state.cache digest = some (owner, expiry) ∧ a.now < expiry

/-- The digest is configured for producers and has a second use. -/
def SharedDigest (a : Setting) (digest : String) : Prop :=
  digest ∈ producerDigests a.cfg ∧
    (digest ∈ configuredDigests a.cfg.workerApiKeys ∨ ActiveDigest a digest ∨
      CachedDigest a digest)

theorem exists_nameForKey_iff {sha256 : String → String} {configured : KeyHashes}
    {rawKey : String} : (∃ name, nameForKey sha256 rawKey configured = some name) ↔
      configured.get (sha256 rawKey) ≠ none := by
  rw [← Option.isSome_iff_exists, nameForKey, Option.isSome_map, Option.isSome_iff_ne_none]

/-- All producer guards look a key up in the same dictionary. -/
theorem acceptedAsProducer_iff {a : Setting} {rawKey : String} (hkey : rawKey ≠ "") :
    AcceptedAsProducer a rawKey ↔ a.sha256 rawKey ∈ producerDigests a.cfg := by
  have hname : (∃ name, nameForKey a.sha256 rawKey (serviceKeyHashes a.cfg) = some name) ↔
      a.sha256 rawKey ∈ producerDigests a.cfg := by
    rw [exists_nameForKey_iff, ne_eq, get_serviceKeyHashes_eq_none_iff, not_not]
  have hsome : (some rawKey).filter (· ≠ "") = some rawKey := by simp [hkey]
  have hpresent : noKey (some rawKey) = false := by simp [noKey, hkey]
  rw [← hname]
  simp only [AcceptedAsProducer, requireProducer, requireProducerStrict, requireAdminOrService,
    requireMachineKey, hsome, hpresent, Bool.false_eq_true, if_false]
  cases nameForKey a.sha256 rawKey (serviceKeyHashes a.cfg) <;> simp

theorem matchKey_ne_none_iff {a : Setting} {digest : String} :
    matchKey a.profiles a.state.keys digest ≠ none ↔ ActiveDigest a digest := by
  rw [ne_eq, matchKey_eq_none_iff]
  simp only [ActiveDigest, ← active_iff, not_forall, exists_prop, Bool.not_eq_false]

/-- A worker key is configured, cached or found in the table. -/
theorem acceptedAsWorker_iff {a : Setting} {rawKey : String} (hkey : rawKey ≠ "") :
    AcceptedAsWorker a rawKey ↔
      a.sha256 rawKey ∈ configuredDigests a.cfg.workerApiKeys ∨
        ActiveDigest a (a.sha256 rawKey) ∨ CachedDigest a (a.sha256 rawKey) := by
  have hname : (∃ name, nameForKey a.sha256 rawKey (workerKeyHashes a.cfg) = some name) ↔
      a.sha256 rawKey ∈ configuredDigests a.cfg.workerApiKeys := by
    rw [exists_nameForKey_iff, ne_eq, get_workerKeyHashes_eq_none_iff, not_not]
  have hcached : (∃ owner, cacheHit a.state.cache a.now (a.sha256 rawKey) = some owner) ↔
      CachedDigest a (a.sha256 rawKey) := by
    simp only [cacheHit_eq_some_iff, CachedDigest]
  have hsome : (some rawKey).filter (· ≠ "") = some rawKey := by simp [hkey]
  rw [← hname, ← matchKey_ne_none_iff, ← hcached]
  simp only [AcceptedAsWorker, requireWorker, userWorkerKey, findActiveKey, hsome]
  cases nameForKey a.sha256 rawKey (workerKeyHashes a.cfg) with
  | some name => simp
  | none =>
    cases cacheHit a.state.cache a.now (a.sha256 rawKey) with
    | some owner => simp
    | none =>
      cases matchKey a.profiles a.state.keys (a.sha256 rawKey) with
      | none => simp
      | some row => simp

/-- No key passes a producer guard and `require_worker` exactly if no producer digest that a
key can have is a worker digest, belongs to an active self-service key or is cached. -/
theorem credentials_separate_iff (a : Setting) :
    (∀ rawKey, rawKey ≠ "" → ¬(AcceptedAsProducer a rawKey ∧ AcceptedAsWorker a rawKey)) ↔
      ∀ rawKey, rawKey ≠ "" → ¬SharedDigest a (a.sha256 rawKey) := by
  refine forall₂_congr fun rawKey hkey => not_congr ?_
  rw [acceptedAsProducer_iff hkey, acceptedAsWorker_iff hkey]
  rfl

/-- The digest of both keys in the settings below. -/
def sharedHash : String := String.ofList (List.replicate 64 'a')

/-- One key configured for a producer and for a worker. -/
def sharedKey : AuthSettings where
  serviceApiKeys := "app:" ++ sharedHash
  workerApiKeys := "box:" ++ sharedHash
  machineAuthRequired := true

theorem sharedKey_valid : validateAuthConfiguration sharedKey = .ok sharedKey := by
  decide +kernel

/-- The validator accepts the settings, and the key passes both kinds of guards. -/
theorem credentials_not_separate :
    ∃ a : Setting, validateAuthConfiguration a.cfg = .ok a.cfg ∧
      a.cfg.machineAuthRequired = true ∧ CreatedKeys a.sha256 a.state.keys ∧
      ∃ rawKey, rawKey ≠ "" ∧ AcceptedAsProducer a rawKey ∧ AcceptedAsWorker a rawKey := by
  refine ⟨⟨fun _ => sharedHash, sharedKey, fun _ => none, ⟨emptyCache, Table.empty⟩, 0, id,
    fun _ => .unreachable⟩, sharedKey_valid, rfl, by simp [CreatedKeys, Table.empty],
    "key", by decide, ?_⟩
  rw [acceptedAsProducer_iff (by decide), acceptedAsWorker_iff (by decide)]
  exact ⟨by decide +kernel, .inl (by decide +kernel)⟩

end TaskQueue.CredentialSeparation

import TaskQueue.KeyedTables
import TaskQueue.PythonStrings

/-!
# The configured credentials

The authentication settings of `app/config.py`: how the comma lists of named key hashes
are read, and what the validator refuses at startup.
-/

namespace TaskQueue.KeyConfiguration
open KeyedTables PythonStrings

/-- `DEMO_REEL_PRODUCER_IDENTITY`. -/
def demoReelProducerIdentity : String := "demo-reel"

/-- The fields of `Settings` that authentication reads. -/
structure AuthSettings where
  authEnabled : Bool := false
  authAdminEmails : String := ""
  supabasePublishableKey : String := ""
  serviceApiKeys : String := ""
  demoReelProducerApiKeyHash : String := ""
  workerApiKeys : String := ""
  machineAuthRequired : Bool := false
  deriving DecidableEq

/-- A dictionary from digests to names. -/
abbrev KeyHashes := Table String (String × String) Prod.fst

/-- `hashes[digest] = name`: a digest that is present keeps its place. -/
def assign (hashes : KeyHashes) (digest name : String) : KeyHashes :=
  if h : hashes.get digest = none then hashes.insertNew (digest, name) h
  else hashes.modify digest (fun entry => (entry.1, name)) fun _ => rfl

/-- The comma entries that are not blank, stripped. -/
def entries (configured : String) : List String :=
  ((split configured ',').map strip).filter (· ≠ "")

/-- The name before the first colon of an entry. -/
def entryName (entry : String) : String := strip (partition entry ':').1

/-- The digest after the first colon, as it is written. -/
def entryText (entry : String) : String := strip (partition entry ':').2

/-- The digest after the first colon, in lower case. The validator admits hexadecimal
digits only, so that the letters are those of ASCII. -/
def entryDigest (entry : String) : String := lower (entryText entry)

/-- `_named_key_hashes`. -/
def namedKeyHashes (configured : String) : KeyHashes :=
  (entries configured).foldl
    (fun hashes entry => assign hashes (entryDigest entry) (entryName entry)) Table.empty

/-- `service_key_hashes`. -/
def serviceKeyHashes (cfg : AuthSettings) : KeyHashes :=
  let hashes := namedKeyHashes cfg.serviceApiKeys
  if cfg.demoReelProducerApiKeyHash ≠ "" then
    assign hashes (lower cfg.demoReelProducerApiKeyHash) demoReelProducerIdentity
  else hashes

/-- `worker_key_hashes`. -/
def workerKeyHashes (cfg : AuthSettings) : KeyHashes := namedKeyHashes cfg.workerApiKeys

/-- `[0-9a-f]`. -/
def isLowerHexDigit (c : Char) : Bool := c.isDigit || ('a' ≤ c && c ≤ 'f')

/-- `[0-9a-fA-F]`. -/
def isHexDigit (c : Char) : Bool := isLowerHexDigit c || ('A' ≤ c && c ≤ 'F')

/-- The entry has a name and a digest of 64 hexadecimal digits. -/
def wellFormed (entry : String) : Bool :=
  entryName entry ≠ "" && (entryText entry).toList.length = 64 &&
    (entryText entry).toList.all isHexDigit

/-- The loop of the validator over one of the two lists. -/
def checkEntries (settingName configured : String) : Except String Unit :=
  if (entries configured).all wellFormed then .ok ()
  else .error s!"{settingName} entries must be name:<sha256 hex of the key>"

/-- The two checks that the validator makes on a producer entry beside the Demo Reel hash. -/
def checkDemoReelEntry (demoReelHash entry : String) : Except String Unit :=
  if entryDigest entry = demoReelHash ∧ entryName entry ≠ demoReelProducerIdentity then
    .error ("DEMO_REEL_PRODUCER_API_KEY_HASH conflicts with a different " ++
      "SERVICE_API_KEYS identity")
  else if entryName entry = demoReelProducerIdentity ∧ entryDigest entry ≠ demoReelHash then
    .error (s!"SERVICE_API_KEYS identity '{demoReelProducerIdentity}' " ++
      "conflicts with DEMO_REEL_PRODUCER_API_KEY_HASH")
  else .ok ()

/-- The checks on the Demo Reel hash; the result is the normalised hash. -/
def checkDemoReel (cfg : AuthSettings) : Except String String := do
  let demoReelHash := lower (strip cfg.demoReelProducerApiKeyHash)
  if cfg.demoReelProducerApiKeyHash ≠ "" ∧
      ¬(demoReelHash.toList.length = 64 ∧ demoReelHash.toList.all isLowerHexDigit) then
    throw "DEMO_REEL_PRODUCER_API_KEY_HASH must be a SHA-256 hex digest"
  if demoReelHash ≠ "" then
    (entries cfg.serviceApiKeys).forM (checkDemoReelEntry demoReelHash)
  return demoReelHash

/-- The last checks of the validator. -/
def checkRequired (cfg : AuthSettings) : Except String Unit :=
  if cfg.machineAuthRequired ∧ (serviceKeyHashes cfg).rows = [] then
    .error "SERVICE_API_KEYS is required when MACHINE_AUTH_REQUIRED=true"
  else if cfg.machineAuthRequired ∧ (workerKeyHashes cfg).rows = [] then
    .error "WORKER_API_KEYS is required when MACHINE_AUTH_REQUIRED=true"
  else if cfg.authEnabled ∧ cfg.supabasePublishableKey = "" then
    .error "SUPABASE_PUBLISHABLE_KEY is required when AUTH_ENABLED=true"
  else if cfg.authEnabled ∧ entries cfg.authAdminEmails = [] then
    .error "AUTH_ADMIN_EMAILS is required when AUTH_ENABLED=true"
  else .ok ()

/-- `validate_auth_configuration`. -/
def validateAuthConfiguration (configured : AuthSettings) : Except String AuthSettings := do
  checkEntries "SERVICE_API_KEYS" configured.serviceApiKeys
  checkEntries "WORKER_API_KEYS" configured.workerApiKeys
  let demoReelHash ← checkDemoReel configured
  let cfg := { configured with demoReelProducerApiKeyHash := demoReelHash }
  checkRequired cfg
  return cfg

/-- The digests that a comma list names. -/
def configuredDigests (configured : String) : List String := (entries configured).map entryDigest

/-- The digests of the producer keys. -/
def producerDigests (cfg : AuthSettings) : List String :=
  configuredDigests cfg.serviceApiKeys ++
    if cfg.demoReelProducerApiKeyHash ≠ "" then [lower cfg.demoReelProducerApiKeyHash] else []

theorem get_assign (hashes : KeyHashes) (digest name d : String) :
    (assign hashes digest name).get d =
      if d = digest then some (digest, name) else hashes.get d := by
  unfold assign
  split
  · rw [Table.get_insertNew]
  · rename_i h
    rw [Table.get_modify]
    by_cases hd : d = digest
    · subst hd
      obtain ⟨entry, hentry⟩ := Option.ne_none_iff_exists'.1 h
      rw [if_pos rfl, if_pos rfl, hentry]
      have hkey : entry.1 = d := Table.key_of_get hentry
      rw [Option.map_some, hkey]
    · rw [if_neg hd, if_neg hd]

theorem get_assign_eq_none_iff {hashes : KeyHashes} {digest name d : String} :
    (assign hashes digest name).get d = none ↔ d ≠ digest ∧ hashes.get d = none := by
  rw [get_assign]
  by_cases hd : d = digest <;> simp [hd]

/-- A digest is in the dictionary exactly if an entry names it. -/
theorem get_namedKeyHashes_eq_none_iff {configured d : String} :
    (namedKeyHashes configured).get d = none ↔ d ∉ configuredDigests configured := by
  have hfold : ∀ (l : List String) (hashes : KeyHashes),
      (l.foldl (fun hashes entry => assign hashes (entryDigest entry) (entryName entry))
        hashes).get d = none ↔ d ∉ l.map entryDigest ∧ hashes.get d = none := by
    intro l
    induction l with
    | nil => simp
    | cons entry l ih =>
      intro hashes
      rw [List.foldl_cons, ih, get_assign_eq_none_iff, List.map_cons, List.mem_cons, not_or,
        and_left_comm, and_assoc]
  unfold namedKeyHashes
  rw [hfold]
  simp [configuredDigests]

theorem get_workerKeyHashes_eq_none_iff {cfg : AuthSettings} {d : String} :
    (workerKeyHashes cfg).get d = none ↔ d ∉ configuredDigests cfg.workerApiKeys :=
  get_namedKeyHashes_eq_none_iff

theorem get_serviceKeyHashes_eq_none_iff {cfg : AuthSettings} {d : String} :
    (serviceKeyHashes cfg).get d = none ↔ d ∉ producerDigests cfg := by
  unfold serviceKeyHashes producerDigests
  by_cases hdemo : cfg.demoReelProducerApiKeyHash = ""
  · simp [hdemo, get_namedKeyHashes_eq_none_iff]
  · simp only [ne_eq, hdemo, not_false_eq_true, if_true, get_assign_eq_none_iff,
      get_namedKeyHashes_eq_none_iff, List.mem_append, List.mem_singleton, not_or]
    exact and_comm

end TaskQueue.KeyConfiguration

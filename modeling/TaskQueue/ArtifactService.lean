import TaskQueue.QueueRows
import TaskQueue.Uuid
import Mathlib.Data.Finset.Insert
import Mathlib.Data.Finset.Erase

/-!
# The artifact service

`app/services/artifact_service.py` on the artifact rows and the objects in the storage
bucket, with the paths of `app/storage.py`. What the storage answers is an argument.
-/

namespace TaskQueue.ArtifactService
open KeyedTables Uuid

structure Artifact where
  id : String
  contentType : String
  sizeBytes : ℕ
  storagePath : String
  createdAt : Time
  expiresAt : Time
  deriving DecidableEq

abbrev ArtifactTable := Table String Artifact Artifact.id

/-- The rows and the paths of the objects in the bucket. -/
structure Store where
  artifacts : ArtifactTable
  objects : Finset String

/-- `_EXT_BY_CONTENT_TYPE.get(content_type, "")`. -/
def extByContentType (contentType : String) : String :=
  if contentType = "image/png" then ".png"
  else if contentType = "image/jpeg" then ".jpg"
  else if contentType = "image/webp" then ".webp"
  else ""

/-- `object_path`. -/
def objectPath (artifactId contentType : String) : String :=
  artifactId ++ extByContentType contentType

/-- How a request to the storage ends. -/
inductive Answer
  | ok
  | status (code : ℕ)
  | transportError
  deriving DecidableEq

/-- The exceptions of the service; the last three are those of its libraries. -/
inductive ArtifactError
  | artifactServiceError (message : String)
  | storageError
  | dataError
  | databaseError
  deriving DecidableEq

/-- The row of a new artifact. -/
def newArtifact (retentionHours : Int) (now createdAt : Time) (id contentType : String)
    (sizeBytes : ℕ) : Artifact where
  id := id
  contentType := contentType
  sizeBytes := sizeBytes
  storagePath := objectPath id contentType
  createdAt := createdAt
  expiresAt := now + hours retentionHours

/-- An upload request to the storage; a request that fails may have stored the object. -/
structure UploadAttempt where
  answer : Answer
  stored : Bool

/-- `upload_artifact` for the id it draws. The row is not added where the storage refuses
the object or the database the row. -/
def uploadArtifact (retentionHours : Int) (now createdAt : Time) (id : String) (s : Store)
    (sizeBytes : ℕ) (contentType : String) (attempt : UploadAttempt) (commits : Bool) :
    Store × Except ArtifactError Artifact :=
  let row := newArtifact retentionHours now createdAt id contentType sizeBytes
  let objects := if attempt.stored then insert row.storagePath s.objects else s.objects
  if attempt.answer ≠ .ok then (⟨s.artifacts, objects⟩, .error .storageError)
  else if ¬commits then (⟨s.artifacts, objects⟩, .error .databaseError)
  else if h : s.artifacts.get row.id = none then (⟨s.artifacts.insertNew row h, objects⟩, .ok row)
  else (⟨s.artifacts, objects⟩, .error .databaseError)

/-- `delete from artifacts where expires_at < now()`. -/
def cleanupArtifacts (now : Time) (s : Store) : Store :=
  { s with artifacts := s.artifacts.filter fun row => !decide (row.expiresAt < now) }

def notFound (artifactId : String) : ArtifactError :=
  .artifactServiceError s!"artifact {artifactId} not found"

/-- `db.get(Artifact, artifact_id)`: the text goes to the database as it is. -/
def loadArtifact (artifacts : ArtifactTable) (artifactId : String) :
    Except ArtifactError (Option Artifact) :=
  match pgUuid artifactId with
  | none => .error .dataError
  | some id => .ok (artifacts.get id)

/-- `get_artifact`. -/
def getArtifact (artifacts : ArtifactTable) (artifactId : String) :
    Except ArtifactError Artifact := do
  if uuidOf artifactId = none then throw (notFound artifactId)
  match ← loadArtifact artifacts artifactId with
  | none => throw (notFound artifactId)
  | some row => return row

/-- The paths that a deletion tries whether or not it finds a row. -/
def guessedPaths (artifactId : String) : List String :=
  [artifactId ++ ".png", artifactId ++ ".webp", artifactId ++ ".jpg"]

/-- `dict.fromkeys(paths)`. -/
def deletionPaths (artifactId : String) (artifact : Option Artifact) : List String :=
  (guessedPaths artifactId ++ (artifact.map Artifact.storagePath).toList).eraseDups

/-- A deletion request to the storage, and whether it has removed the object. -/
structure DeleteAttempt where
  answer : Answer
  removed : Bool
  deriving DecidableEq

/-- The objects after the request for one path. -/
def DeleteAttempt.objectsAfter (attempt : DeleteAttempt) (path : String)
    (objects : Finset String) : Finset String :=
  if attempt.removed then objects.erase path else objects

/-- The answers after which the loop goes on; of the error statuses it passes over two. -/
def Answer.passes : Answer → Bool
  | .ok => true
  | .status code => code = 400 || code = 404
  | .transportError => false

/-- The loop of `delete_artifact_files`: the remaining objects, and whether it went through. -/
def deleteObjects (attempts : String → DeleteAttempt) :
    Finset String → List String → Finset String × Except ArtifactError Unit
  | objects, [] => (objects, .ok ())
  | objects, path :: paths =>
    let objects := (attempts path).objectsAfter path objects
    if (attempts path).answer.passes then deleteObjects attempts objects paths
    else (objects, .error .storageError)

/-- `delete_artifact_files`. -/
def deleteArtifactFiles (s : Store) (artifactId : String) (attempts : String → DeleteAttempt)
    (commits : Bool) : Store × Except ArtifactError Unit :=
  if uuidOf artifactId = none then (s, .error (notFound artifactId))
  else match loadArtifact s.artifacts artifactId with
    | .error e => (s, .error e)
    | .ok artifact =>
      match deleteObjects attempts s.objects (deletionPaths artifactId artifact) with
      | (objects, .error e) => (⟨s.artifacts, objects⟩, .error e)
      | (objects, .ok ()) =>
        if ¬commits then (⟨s.artifacts, objects⟩, .error .databaseError)
        else (⟨s.artifacts.filter fun row => artifact.all fun gone => row.id ≠ gone.id, objects⟩,
          .ok ())

/-- What the storage promises about a deletion request: a success has removed the object,
and 400 or 404 means that there is none. -/
def DeleteAttempt.Lawful (objects : Finset String) (path : String) (attempt : DeleteAttempt) :
    Prop :=
  match attempt.answer with
  | .ok => attempt.removed = true
  | .status code => code = 400 ∨ code = 404 → path ∉ objects
  | .transportError => True

instance (objects : Finset String) (path : String) (attempt : DeleteAttempt) :
    Decidable (attempt.Lawful objects path) := by
  unfold DeleteAttempt.Lawful
  split <;> infer_instance

end TaskQueue.ArtifactService

import TaskQueue.ArtifactDeletion

/-!
# What has been uploaded can be fetched

The storage with the contents of its objects. An artifact whose upload has succeeded keeps its
bytes until a deletion names it, and its row until the retention job deletes it: no operation on
another artifact writes to its object or removes it.
-/

namespace TaskQueue.ArtifactContents
open KeyedTables StepRuns Uuid ArtifactService
open ArtifactDeletion (History Operation Known)

/-- An object in the bucket. -/
structure Object where
  content : List UInt8
  contentType : String
  deriving DecidableEq

/-- The store, and what has last been written under each path. -/
structure Archive where
  history : History
  written : String → Object

/-- `storage.download`, if it answers. -/
def Archive.object (a : Archive) (path : String) : Option Object :=
  if path ∈ a.history.store.objects then some (a.written path) else none

/-- An operation, for an upload with the bytes of the file. -/
inductive Request
  | uploadArtifact (now createdAt : Time) (id : String) (file : Object) (attempt : UploadAttempt)
      (commits : Bool)
  | cleanupArtifacts (now : Time)
  | deleteArtifactFiles (artifactId : String) (attempts : String → DeleteAttempt) (commits : Bool)

def Request.operation : Request → Operation
  | .uploadArtifact now createdAt id file attempt commits =>
    .uploadArtifact now createdAt id file.contentType file.content.length attempt commits
  | .cleanupArtifacts now => .cleanupArtifacts now
  | .deleteArtifactFiles artifactId attempts commits =>
    .deleteArtifactFiles artifactId attempts commits

/-- What an operation writes to the bucket. -/
def write (written : String → Object) : Request → String → Object
  | .uploadArtifact _ _ id file attempt _ =>
    if attempt.stored then Function.update written (objectPath id file.contentType) file
    else written
  | _ => written

def step (retentionHours : Int) (a : Archive) (r : Request) : Option Archive :=
  (ArtifactDeletion.step retentionHours a.history r.operation).map fun history =>
    ⟨history, write a.written r⟩

/-- Nothing has been uploaded. -/
def start : Archive := ⟨ArtifactDeletion.start, fun _ => ⟨[], ""⟩⟩

/-- `get_artifact_bytes` with the answer of the storage to the download. -/
def getArtifactBytes (a : Archive) (artifactId : String) (answer : Answer) :
    Except ArtifactError (List UInt8 × String) := do
  let row ← getArtifact a.history.store.artifacts artifactId
  match a.object row.storagePath, answer with
  | some file, .ok => return (file.content, row.contentType)
  | _, _ => throw .storageError

section Paths

/-- No uuid is written with a dot. -/
theorem no_dot {text id : String} (h : pgUuid text = some id) : '.' ∉ text.toList := by
  have hplain {body : List Char} (hbody : ∀ c ∈ body, c ∈ hexDigits ∨ c = '-') : '.' ∉ body := by
    intro hdot
    rcases hbody '.' hdot with hhex | heq
    · exact absurd hhex (by decide)
    · exact absurd heq (by decide)
  obtain ⟨digits, hdigits, -⟩ := Option.map_eq_some_iff.1 h
  split at hdigits
  · next s htext =>
    obtain ⟨body, rfl, hchars, -⟩ := digitGroups_body hdigits
    rw [htext]
    simp [hplain hchars]
  · next s htext =>
    obtain ⟨body, hbody, hchars, -⟩ := digitGroups_body hdigits
    rw [hbody]
    simp [hplain hchars]

/-- The text in front of the extension. -/
theorem takeWhile_path {text extension : String} (h : '.' ∉ text.toList)
    (hextension : extension ∈ ["", ".png", ".jpg", ".webp"]) :
    (text ++ extension).toList.takeWhile (· ≠ '.') = text.toList := by
  have hend : extension.toList.takeWhile (· ≠ '.') = [] := by
    simp only [List.mem_cons, List.not_mem_nil, or_false] at hextension
    obtain rfl | rfl | rfl | rfl := hextension <;> rfl
  have hall : ∀ c ∈ text.toList, decide (c ≠ '.') = true := by
    intro c hc
    refine decide_eq_true ?_
    rintro rfl
    exact h hc
  rw [String.toList_append, List.takeWhile_append_of_pos hall, hend, List.append_nil]

theorem path_inj {a b x y : String} (ha : '.' ∉ a.toList) (hb : '.' ∉ b.toList)
    (hx : x ∈ ["", ".png", ".jpg", ".webp"]) (hy : y ∈ ["", ".png", ".jpg", ".webp"])
    (h : a ++ x = b ++ y) : a = b := by
  rw [← String.toList_inj, ← takeWhile_path ha hx, h, takeWhile_path hb hy]

theorem extByContentType_mem (contentType : String) :
    extByContentType contentType ∈ ["", ".png", ".jpg", ".webp"] := by
  unfold extByContentType
  split_ifs <;> simp

end Paths

/-- Each upload has drawn a canonical uuid and has written under its path. -/
def Spelled (h : History) : Prop :=
  ∀ u ∈ h.uploads, pgUuid u.1 = some u.1 ∧ ∃ contentType, u.2 = objectPath u.1 contentType

section Steps
variable {retentionHours : Int} {h h' : History}

theorem spelled_step {op : Operation} (hs : Spelled h)
    (hstep : ArtifactDeletion.step retentionHours h op = some h') : Spelled h' := by
  cases op with
  | uploadArtifact now createdAt id contentType sizeBytes attempt commits =>
    simp only [ArtifactDeletion.step, Option.ite_none_right_eq_some, Option.some.injEq] at hstep
    obtain ⟨hnew, rfl⟩ := hstep
    intro u hu
    rcases List.mem_append.1 hu with hu | hu
    · exact hs u hu
    · obtain rfl := List.mem_singleton.1 hu
      exact ⟨hnew.1, contentType, rfl⟩
  | cleanupArtifacts now =>
    cases hstep
    exact fun u hu => hs u hu
  | deleteArtifactFiles artifactId attempts commits =>
    simp only [ArtifactDeletion.step, Option.ite_none_right_eq_some, Option.some.injEq] at hstep
    obtain ⟨-, rfl⟩ := hstep
    exact fun u hu => hs u hu

/-- The paths that a deletion of another artifact tries. -/
theorem not_mem_triedPaths (hs : Spelled h) (hk : Known h) {artifactId id contentType : String}
    (hid : pgUuid id = some id) (hother : pgUuid artifactId ≠ some id) :
    objectPath id contentType ∉ ArtifactDeletion.triedPaths h.store.artifacts artifactId := by
  have hdot := no_dot hid
  cases ht : pgUuid artifactId with
  | none => simp [ArtifactDeletion.triedPaths, loadArtifact, ht]
  | some other =>
    have hne : artifactId ≠ id := by
      rintro rfl
      exact hother hid
    have hguess : ∀ extension ∈ ["", ".png", ".jpg", ".webp"],
        objectPath id contentType ≠ artifactId ++ extension := fun extension hext heq =>
      hne (path_inj (no_dot ht) hdot hext (extByContentType_mem contentType) heq.symm)
    rw [ArtifactDeletion.triedPaths_of_pgUuid ht, ArtifactDeletion.mem_deletionPaths]
    rintro (hmem | ⟨row, hrow, hpath⟩)
    · simp only [guessedPaths, List.mem_cons, List.not_mem_nil, or_false] at hmem
      obtain heq | heq | heq := hmem
      · exact hguess ".png" (by simp) heq
      · exact hguess ".webp" (by simp) heq
      · exact hguess ".jpg" (by simp) heq
    · obtain ⟨hspelled, type, htype⟩ := hs _ (hk.row_path row (Table.mem_of_get hrow))
      dsimp only at hspelled htype
      rw [htype] at hpath
      have hsame : row.id = id := path_inj (no_dot hspelled) hdot (extByContentType_mem type)
        (extByContentType_mem contentType) hpath.symm
      rw [Table.key_of_get hrow] at hsame
      exact hother (ht.trans (congrArg some hsame))

end Steps

/-- The bytes of an artifact are in the bucket. -/
structure Stored (id : String) (file : Object) (a : Archive) : Prop where
  spelled : Spelled a.history
  known : Known a.history
  uploaded : (id, objectPath id file.contentType) ∈ a.history.uploads
  object : a.object (objectPath id file.contentType) = some file

/-- The request is no deletion of the artifact, however its id is written. -/
def Spares (id : String) : Request → Prop
  | .deleteArtifactFiles artifactId _ _ => pgUuid artifactId ≠ some id
  | _ => True

section Runs
variable {retentionHours : Int} {a b : Archive} {id : String} {file : Object} {r : Request}

theorem object_eq_some_iff {path : String} :
    a.object path = some file ↔ path ∈ a.history.store.objects ∧ a.written path = file := by
  simp [Archive.object]

theorem objects_uploadArtifact (now createdAt : Time) (contentType : String) (s : Store)
    (sizeBytes : ℕ) (attempt : UploadAttempt) (commits : Bool) :
    (uploadArtifact retentionHours now createdAt id s sizeBytes contentType attempt
      commits).1.objects =
      if attempt.stored then insert (objectPath id contentType) s.objects else s.objects := by
  unfold uploadArtifact
  dsimp only
  split
  · rfl
  · split
    · rfl
    · split <;> rfl

/-- A deletion leaves the objects alone that it does not try. -/
theorem mem_objects_deleteArtifactFiles {s : Store} {artifactId path : String}
    {attempts : String → DeleteAttempt} {commits : Bool}
    {result : Store × Except ArtifactError Unit}
    (hresult : deleteArtifactFiles s artifactId attempts commits = result)
    (hpath : path ∈ s.objects)
    (hnot : path ∉ ArtifactDeletion.triedPaths s.artifacts artifactId) :
    path ∈ result.1.objects := by
  unfold deleteArtifactFiles at hresult
  unfold ArtifactDeletion.triedPaths at hnot
  split at hresult
  · rw [← hresult]
    exact hpath
  · split at hresult
    · rw [← hresult]
      exact hpath
    next artifact hload =>
      rw [hload] at hnot
      have hkept : path ∈ (deleteObjects attempts s.objects
          (deletionPaths artifactId artifact)).1 :=
        ArtifactDeletion.mem_deleteObjects hpath hnot
      split at hresult
      next objects e hloop =>
        rw [hloop] at hkept
        rwa [← hresult]
      next objects hloop =>
        rw [hloop] at hkept
        split at hresult
        · rwa [← hresult]
        · rwa [← hresult]

/-- One request that spares the artifact keeps its bytes. -/
theorem step_stored (hstep : step retentionHours a r = some b) (hs : Stored id file a)
    (hspares : Spares id r) : Stored id file b := by
  obtain ⟨history, hhistory, rfl⟩ := Option.map_eq_some_iff.1 hstep
  have hspelled := spelled_step hs.spelled hhistory
  have hknown := ArtifactDeletion.known_step hs.known hhistory
  obtain ⟨hmem, hwritten⟩ := object_eq_some_iff.1 hs.object
  have hid : pgUuid id = some id := (hs.spelled _ hs.uploaded).1
  cases r with
  | uploadArtifact now createdAt new other attempt commits =>
    simp only [Request.operation, ArtifactDeletion.step, Option.ite_none_right_eq_some,
      Option.some.injEq] at hhistory
    obtain ⟨⟨hnew, hfresh, -⟩, rfl⟩ := hhistory
    have hne : objectPath id file.contentType ≠ objectPath new other.contentType := by
      intro heq
      exact hfresh _ hs.uploaded (path_inj (no_dot hid) (no_dot hnew)
        (extByContentType_mem _) (extByContentType_mem _) heq)
    refine ⟨hspelled, hknown, List.mem_append_left _ hs.uploaded,
      object_eq_some_iff.2 ⟨?_, ?_⟩⟩
    · dsimp only
      rw [objects_uploadArtifact]
      split
      · exact Finset.mem_insert_of_mem hmem
      · exact hmem
    · simp only [write]
      split
      · rw [Function.update_of_ne hne, hwritten]
      · exact hwritten
  | cleanupArtifacts now =>
    cases hhistory
    exact ⟨hspelled, hknown, hs.uploaded, object_eq_some_iff.2 ⟨hmem, hwritten⟩⟩
  | deleteArtifactFiles artifactId attempts commits =>
    simp only [Request.operation, ArtifactDeletion.step, Option.ite_none_right_eq_some,
      Option.some.injEq] at hhistory
    obtain ⟨-, rfl⟩ := hhistory
    generalize hresult : deleteArtifactFiles a.history.store artifactId attempts commits =
      result at hspelled hknown
    refine ⟨hspelled, hknown, hs.uploaded, object_eq_some_iff.2 ⟨?_, hwritten⟩⟩
    exact mem_objects_deleteArtifactFiles hresult hmem
      (not_mem_triedPaths hs.spelled hs.known hid hspares)

/-- The request is no run of the retention job behind this time. -/
def Before (expiresAt : Time) : Request → Prop
  | .cleanupArtifacts now => now ≤ expiresAt
  | _ => True

theorem get_uploadArtifact {row : Artifact} {now createdAt : Time} {contentType : String}
    {s : Store} {sizeBytes : ℕ} {attempt : UploadAttempt} {commits : Bool}
    (hrow : s.artifacts.get row.id = some row) :
    (uploadArtifact retentionHours now createdAt id s sizeBytes contentType attempt
      commits).1.artifacts.get row.id = some row := by
  unfold uploadArtifact
  dsimp only
  split
  · exact hrow
  · split
    · exact hrow
    · split
      next hnew =>
        rw [Table.get_insertNew, if_neg]
        · exact hrow
        · intro heq
          rw [← heq, hrow] at hnew
          cases hnew
      next => exact hrow

theorem get_deleteArtifactFiles {row : Artifact} {s : Store} {artifactId : String}
    {attempts : String → DeleteAttempt} {commits : Bool}
    {result : Store × Except ArtifactError Unit}
    (hresult : deleteArtifactFiles s artifactId attempts commits = result)
    (hrow : s.artifacts.get row.id = some row) (hother : pgUuid artifactId ≠ some row.id) :
    result.1.artifacts.get row.id = some row := by
  rw [← hresult]
  rcases ArtifactDeletion.deleteArtifactFiles_cases s artifactId attempts commits with
    ⟨e, objects, heq⟩ | ⟨other, artifact, objects, -, hid, rfl, -, heq⟩
  · rw [heq]
    exact hrow
  · rw [heq, Table.get_filter, hrow]
    refine Option.filter_eq_some_iff.2 ⟨rfl, ?_⟩
    rw [Option.all_eq_true_iff_get]
    intro hfound
    have hgone := Table.key_of_get (Option.some_get hfound).symm
    refine decide_eq_true fun heq => hother ?_
    rw [hid, heq, hgone]

/-- Such a request keeps the row. -/
theorem step_row (row : Artifact) (hstep : step retentionHours a r = some b)
    (hrow : a.history.store.artifacts.get row.id = some row) (hspares : Spares row.id r)
    (hbefore : Before row.expiresAt r) : b.history.store.artifacts.get row.id = some row := by
  obtain ⟨history, hhistory, rfl⟩ := Option.map_eq_some_iff.1 hstep
  cases r with
  | uploadArtifact now createdAt new other attempt commits =>
    simp only [Request.operation, ArtifactDeletion.step, Option.ite_none_right_eq_some,
      Option.some.injEq] at hhistory
    obtain ⟨-, rfl⟩ := hhistory
    exact get_uploadArtifact hrow
  | cleanupArtifacts now =>
    cases hhistory
    simp only [cleanupArtifacts, Table.get_filter, hrow]
    exact Option.filter_eq_some_iff.2 ⟨rfl, by simpa [Before] using hbefore⟩
  | deleteArtifactFiles artifactId attempts commits =>
    simp only [Request.operation, ArtifactDeletion.step, Option.ite_none_right_eq_some,
      Option.some.injEq] at hhistory
    obtain ⟨-, rfl⟩ := hhistory
    generalize hresult : deleteArtifactFiles a.history.store artifactId attempts commits = result
    exact get_deleteArtifactFiles hresult hrow hspares

theorem run_start {rs : List Request} (hrun : exec (step retentionHours) start rs = some a) :
    Spelled a.history ∧ Known a.history := by
  refine invariant (I := fun a => Spelled a.history ∧ Known a.history) ?_
    ⟨fun u hu => absurd hu List.not_mem_nil, ArtifactDeletion.known_start⟩ hrun
  intro a r b h hstep
  obtain ⟨history, hhistory, rfl⟩ := Option.map_eq_some_iff.1 hstep
  exact ⟨spelled_step h.1 hhistory, ArtifactDeletion.known_step h.2 hhistory⟩

/-- An upload that is answered with a row has stored the bytes and the row. -/
theorem upload_stored {now createdAt : Time} {attempt : UploadAttempt} {commits : Bool}
    {row : Artifact} (hs : Spelled a.history) (hk : Known a.history)
    (hrow : (uploadArtifact retentionHours now createdAt id a.history.store file.content.length
      file.contentType attempt commits).2 = .ok row)
    (hstep : step retentionHours a (.uploadArtifact now createdAt id file attempt commits) =
      some b) :
    Stored id file b ∧ b.history.store.artifacts.get id = some row ∧
      row = newArtifact retentionHours now createdAt id file.contentType file.content.length := by
  obtain ⟨history, hhistory, rfl⟩ := Option.map_eq_some_iff.1 hstep
  have hspelled := spelled_step hs hhistory
  have hknown := ArtifactDeletion.known_step hk hhistory
  simp only [Request.operation, ArtifactDeletion.step, Option.ite_none_right_eq_some,
    Option.some.injEq] at hhistory
  obtain ⟨⟨-, -, hstored⟩, rfl⟩ := hhistory
  generalize hresult : uploadArtifact retentionHours now createdAt id a.history.store
    file.content.length file.contentType attempt commits = result at hrow hspelled hknown
  have hobjects : result.1.objects = if attempt.stored then
      insert (objectPath id file.contentType) a.history.store.objects
      else a.history.store.objects := by
    rw [← hresult, objects_uploadArtifact]
  unfold uploadArtifact at hresult
  dsimp only at hresult
  split at hresult
  · rw [← hresult] at hrow
    cases hrow
  next hanswer =>
    have hwrites : attempt.stored = true := hstored (not_not.1 hanswer)
    split at hresult
    · rw [← hresult] at hrow
      cases hrow
    · split at hresult
      next hnew =>
        rw [← hresult] at hrow
        cases hrow
        refine ⟨⟨hspelled, hknown, ?_, object_eq_some_iff.2 ⟨?_, ?_⟩⟩, ?_, rfl⟩
        · exact List.mem_append_right _ (List.mem_singleton_self _)
        · dsimp only
          rw [hobjects, if_pos hwrites]
          exact Finset.mem_insert_self _ _
        · simp only [write, if_pos hwrites, Function.update_self]
        · dsimp only
          rw [← hresult, Table.get_insertNew]
          exact if_pos rfl
      next =>
        rw [← hresult] at hrow
        cases hrow

/-- What an upload has stored is there, unchanged, until a deletion names it. Until the retention
job comes after its expiry it can be fetched too, whatever spelling of its id is asked for. -/
theorem upload_kept (retentionHours : Int) {before after : List Request} {a b : Archive}
    {now createdAt : Time} {id : String} {file : Object} {attempt : UploadAttempt} {commits : Bool}
    {row : Artifact} (hbefore : exec (step retentionHours) start before = some a)
    (hrow : (uploadArtifact retentionHours now createdAt id a.history.store file.content.length
      file.contentType attempt commits).2 = .ok row)
    (hafter : exec (step retentionHours) a
      (.uploadArtifact now createdAt id file attempt commits :: after) = some b)
    (hspares : ∀ r ∈ after, Spares id r) :
    b.object row.storagePath = some file ∧
      ((∀ r ∈ after, Before row.expiresAt r) → ∀ text, pgUuid text = some id →
        getArtifact b.history.store.artifacts text = .ok row ∧
        getArtifactBytes b text .ok = .ok (file.content, file.contentType)) := by
  obtain ⟨hs, hk⟩ := run_start hbefore
  obtain ⟨c, hupload, hrest⟩ := exec_cons_inv hafter
  obtain ⟨hstored, hget, rfl⟩ := upload_stored hs hk hrow hupload
  have hkept : Stored id file b := by
    refine invariant_along (I := Stored id file) (P := fun _ r => Spares id r) ?_ hstored
      (Along.of_forall fun r hr _ => hspares r hr) hrest
    exact fun s r t h hspare hstep => step_stored hstep h hspare
  refine ⟨hkept.object, fun hexpiry text htext => ?_⟩
  have hfound : b.history.store.artifacts.get id =
      some (newArtifact retentionHours now createdAt id file.contentType file.content.length) := by
    refine invariant_along
      (I := fun c => c.history.store.artifacts.get id = some (newArtifact retentionHours now
        createdAt id file.contentType file.content.length))
      (P := fun _ r => Spares id r ∧ Before (now + hours retentionHours) r) ?_ hget
      (Along.of_forall fun r hr _ => ⟨hspares r hr, hexpiry r hr⟩) hrest
    exact fun s r t h hr hstep => step_row (newArtifact retentionHours now createdAt id
      file.contentType file.content.length) hstep h hr.1 hr.2
  have hartifact : getArtifact b.history.store.artifacts text =
      .ok (newArtifact retentionHours now createdAt id file.contentType file.content.length) := by
    unfold getArtifact loadArtifact
    rw [if_neg (uuidOf_of_pgUuid htext), htext]
    simp only [hfound, bind, Except.bind, pure, Except.pure]
  refine ⟨hartifact, ?_⟩
  have hobject := hkept.object
  unfold getArtifactBytes
  rw [hartifact]
  simp only [bind, Except.bind, newArtifact, hobject, pure, Except.pure]

/-- The retention job and the deletion of another artifact come after an upload. -/
def afterUpload : List Request :=
  [.cleanupArtifacts (hours 24),
    .deleteArtifactFiles "b0eebc99-9c0b-4ef8-bb6d-6bb9bd380a11"
      (fun _ => ⟨.status 404, false⟩) true]

/-- The store with the new artifact. -/
def uploaded : Archive where
  history := ⟨⟨⟨[newArtifact 168 0 0 ArtifactDeletion.someId "image/webp" 3],
      List.nodup_singleton _⟩, insert (objectPath ArtifactDeletion.someId "image/webp") ∅⟩,
    [(ArtifactDeletion.someId, objectPath ArtifactDeletion.someId "image/webp")]⟩
  written := Function.update start.written (objectPath ArtifactDeletion.someId "image/webp")
    ⟨[1, 2, 3], "image/webp"⟩

theorem upload_kept_afterUpload :
    ∃ b, exec (step 168) start (.uploadArtifact 0 0 ArtifactDeletion.someId
        ⟨[1, 2, 3], "image/webp"⟩ ⟨.ok, true⟩ true :: afterUpload) = some b ∧
      b.object (objectPath ArtifactDeletion.someId "image/webp") =
        some ⟨[1, 2, 3], "image/webp"⟩ ∧
      getArtifactBytes b ArtifactDeletion.someId .ok = .ok ([1, 2, 3], "image/webp") := by
  have hcanonical := ArtifactDeletion.someId_canonical
  have hother : pgUuid "b0eebc99-9c0b-4ef8-bb6d-6bb9bd380a11" ≠ some ArtifactDeletion.someId := by
    decide +kernel
  have hupload : step 168 start (.uploadArtifact 0 0 ArtifactDeletion.someId
      ⟨[1, 2, 3], "image/webp"⟩ ⟨.ok, true⟩ true) = some uploaded := by
    simp only [step, Request.operation, ArtifactDeletion.step]
    rw [if_pos ⟨hcanonical, fun u hu => absurd hu List.not_mem_nil, fun _ => trivial⟩]
    rfl
  have hfirst : exec (step 168) start [.uploadArtifact 0 0 ArtifactDeletion.someId
      ⟨[1, 2, 3], "image/webp"⟩ ⟨.ok, true⟩ true] = some uploaded := exec_cons_of_step hupload []
  obtain ⟨hs, hk⟩ := run_start hfirst
  have hcleanup : step 168 uploaded (.cleanupArtifacts (hours 24)) = some uploaded := rfl
  obtain ⟨b, hdelete⟩ : ∃ b, step 168 uploaded (.deleteArtifactFiles
      "b0eebc99-9c0b-4ef8-bb6d-6bb9bd380a11" (fun _ => ⟨.status 404, false⟩) true) = some b := by
    have hlawful : ArtifactDeletion.Lawful uploaded.history.store
        "b0eebc99-9c0b-4ef8-bb6d-6bb9bd380a11" fun _ => ⟨.status 404, false⟩ := by
      intro path hpath _ hmem
      obtain rfl : path = objectPath ArtifactDeletion.someId "image/webp" := by
        simpa [uploaded] using hmem
      exact not_mem_triedPaths hs hk hcanonical hother hpath
    simp only [step, Request.operation, ArtifactDeletion.step]
    rw [if_pos hlawful]
    exact ⟨_, rfl⟩
  have hrun : exec (step 168) start (.uploadArtifact 0 0 ArtifactDeletion.someId
      ⟨[1, 2, 3], "image/webp"⟩ ⟨.ok, true⟩ true :: afterUpload) = some b := by
    rw [exec_cons_of_step hupload, afterUpload, exec_two hcleanup hdelete]
  have hkept := upload_kept 168 (exec_nil start) rfl hrun (by simp [afterUpload, Spares, hother])
  refine ⟨b, hrun, hkept.1, (hkept.2 ?_ _ hcanonical).2⟩
  simp [afterUpload, Before, newArtifact, hours]

end Runs
end TaskQueue.ArtifactContents

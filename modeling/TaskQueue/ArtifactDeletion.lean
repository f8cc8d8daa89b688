import TaskQueue.ArtifactService
import TaskQueue.StepRuns

/-!
# Deleting artifacts for good

Uploads, the retention job and deletions as one system, with a record of every path under
which an artifact has been uploaded. A deletion knows that path only from the row; without
one it guesses.
-/

namespace TaskQueue.ArtifactDeletion
open KeyedTables StepRuns Uuid ArtifactService

/-- The store, and for each upload the artifact and the path of its object. -/
structure History where
  store : Store
  uploads : List (String × String)

inductive Operation
  | uploadArtifact (now createdAt : Time) (id contentType : String) (sizeBytes : ℕ)
      (attempt : UploadAttempt) (commits : Bool)
  | cleanupArtifacts (now : Time)
  | deleteArtifactFiles (artifactId : String) (attempts : String → DeleteAttempt) (commits : Bool)

/-- The paths that a deletion tries in this store. -/
def triedPaths (artifacts : ArtifactTable) (artifactId : String) : List String :=
  match loadArtifact artifacts artifactId with
  | .error _ => []
  | .ok artifact => deletionPaths artifactId artifact

/-- The storage keeps its promises to a deletion. -/
def Lawful (s : Store) (artifactId : String) (attempts : String → DeleteAttempt) : Prop :=
  ∀ path ∈ triedPaths s.artifacts artifactId, (attempts path).Lawful s.objects path

instance (s : Store) (artifactId : String) (attempts : String → DeleteAttempt) :
    Decidable (Lawful s artifactId attempts) :=
  inferInstanceAs (Decidable (∀ path ∈ _, _))

/-- One operation. A new artifact has a uuid, in canonical spelling, that no other has. -/
def step (retentionHours : Int) (s : History) : Operation → Option History
  | .uploadArtifact now createdAt id contentType sizeBytes attempt commits =>
    if pgUuid id = some id ∧ (∀ u ∈ s.uploads, u.1 ≠ id) ∧
        (attempt.answer = .ok → attempt.stored = true) then
      some ⟨(ArtifactService.uploadArtifact retentionHours now createdAt id s.store sizeBytes
          contentType attempt commits).1,
        s.uploads ++ [(id, objectPath id contentType)]⟩
    else none
  | .cleanupArtifacts now => some { s with store := ArtifactService.cleanupArtifacts now s.store }
  | .deleteArtifactFiles artifactId attempts commits =>
    if Lawful s.store artifactId attempts then
      some { s with
        store := (ArtifactService.deleteArtifactFiles s.store artifactId attempts commits).1 }
    else none

def start : History := ⟨⟨Table.empty, ∅⟩, []⟩

/-- The outcome of a deletion: if it returned, no row and no object of the artifact is left;
if it raised, the row is still there. -/
def Settled (s : History) (artifactId : String) (r : Store × Except ArtifactError Unit) : Prop :=
  ∀ id, pgUuid artifactId = some id →
    (r.2 = .ok () → r.1.artifacts.get id = none ∧
      ∀ path, (id, path) ∈ s.uploads → path ∉ r.1.objects) ∧
    (r.2 ≠ .ok () → r.1.artifacts.get id = s.store.artifacts.get id)

/-- Whatever the storage and the database answer, a deletion settles the artifact. -/
def AlwaysSettled (s : History) (artifactId : String) : Prop :=
  ∀ attempts commits, Lawful s.store artifactId attempts →
    Settled s artifactId (deleteArtifactFiles s.store artifactId attempts commits)

/-- The text is refused, the row still tells the path, or what is left of the artifact lies
under the paths that are guessed from the text. -/
def Deletable (s : History) (artifactId : String) : Prop :=
  uuidOf artifactId = none ∨ ∀ id, pgUuid artifactId = some id →
    s.store.artifacts.get id ≠ none ∨
      ∀ path, (id, path) ∈ s.uploads → path ∈ s.store.objects → path ∈ guessedPaths artifactId

section Loop
variable {attempt : DeleteAttempt} {attempts : String → DeleteAttempt} {objects : Finset String}
  {paths : List String} {path first : String}

theorem objectsAfter_subset : attempt.objectsAfter first objects ⊆ objects := by
  unfold DeleteAttempt.objectsAfter
  split
  · exact Finset.erase_subset _ _
  · exact subset_rfl

theorem mem_objectsAfter (hpath : path ∈ objects) (hne : path ≠ first) :
    path ∈ attempt.objectsAfter first objects := by
  unfold DeleteAttempt.objectsAfter
  split
  · exact Finset.mem_erase.2 ⟨hne, hpath⟩
  · exact hpath

/-- Where the loop goes on, the object is gone. -/
theorem not_mem_objectsAfter (hlawful : attempt.Lawful objects path)
    (hpasses : attempt.answer.passes = true) : path ∉ attempt.objectsAfter path objects := by
  unfold DeleteAttempt.Lawful at hlawful
  cases hanswer : attempt.answer with
  | ok =>
    rw [hanswer] at hlawful
    simp [DeleteAttempt.objectsAfter, hlawful]
  | status code =>
    rw [hanswer] at hlawful hpasses
    have hcode : code = 400 ∨ code = 404 := by simpa [Answer.passes] using hpasses
    exact fun h => hlawful hcode (objectsAfter_subset h)
  | transportError =>
    rw [hanswer] at hpasses
    cases hpasses

/-- Promises about more objects are promises about fewer. -/
theorem lawful_mono {fewer : Finset String} (hsub : fewer ⊆ objects)
    (h : attempt.Lawful objects path) : attempt.Lawful fewer path := by
  unfold DeleteAttempt.Lawful at h ⊢
  split at h
  · exact h
  · exact fun hcode hmem => h hcode (hsub hmem)
  · trivial

/-- A deletion adds no object. -/
theorem deleteObjects_subset : (deleteObjects attempts objects paths).1 ⊆ objects := by
  induction paths generalizing objects with
  | nil => exact subset_rfl
  | cons first paths ih =>
    unfold deleteObjects
    dsimp only
    split
    · exact ih.trans objectsAfter_subset
    · exact objectsAfter_subset

/-- A deletion leaves the objects alone that it does not try. -/
theorem mem_deleteObjects (hpath : path ∈ objects) (hnot : path ∉ paths) :
    path ∈ (deleteObjects attempts objects paths).1 := by
  induction paths generalizing objects with
  | nil => exact hpath
  | cons first paths ih =>
    rw [List.mem_cons, not_or] at hnot
    have hfirst : path ∈ (attempts first).objectsAfter first objects :=
      mem_objectsAfter hpath hnot.1
    unfold deleteObjects
    dsimp only
    split
    · exact ih hfirst hnot.2
    · exact hfirst

/-- A deletion that went through has removed whatever it tried. -/
theorem not_mem_deleteObjects (hlawful : ∀ p ∈ paths, (attempts p).Lawful objects p)
    (hok : (deleteObjects attempts objects paths).2 = .ok ()) (hpath : path ∈ paths) :
    path ∉ (deleteObjects attempts objects paths).1 := by
  induction paths generalizing objects with
  | nil => cases hpath
  | cons first paths ih =>
    have hrest : ∀ p ∈ paths, (attempts p).Lawful ((attempts first).objectsAfter first objects) p :=
      fun p hp => lawful_mono objectsAfter_subset (hlawful p (List.mem_cons_of_mem _ hp))
    unfold deleteObjects at hok ⊢
    dsimp only at hok ⊢
    split at hok
    · rename_i hpasses
      rw [if_pos hpasses]
      rcases List.mem_cons.1 hpath with rfl | hpath
      · have hgone := not_mem_objectsAfter (hlawful path List.mem_cons_self) hpasses
        exact fun h => hgone (deleteObjects_subset h)
      · exact ih hrest hok hpath
    · cases hok

/-- The storage removes what is there and says that the rest is not. -/
def truthful (objects : Finset String) (path : String) : DeleteAttempt :=
  if path ∈ objects then ⟨.ok, true⟩ else ⟨.status 404, false⟩

theorem truthful_lawful : (truthful objects path).Lawful objects path := by
  unfold truthful
  split
  · rfl
  · rename_i hnot
    exact fun _ => hnot

theorem deleteObjects_truthful (present : Finset String) :
    (deleteObjects (truthful present) objects paths).2 = .ok () := by
  induction paths generalizing objects with
  | nil => rfl
  | cons first paths ih =>
    have hpasses : (truthful present first).answer.passes = true := by
      unfold truthful
      split <;> rfl
    unfold deleteObjects
    dsimp only
    rw [if_pos hpasses]
    exact ih

end Loop

section Deletion
variable {s : History} {artifactId : String}

theorem mem_deletionPaths {path : String} {artifact : Option Artifact} :
    path ∈ deletionPaths artifactId artifact ↔
      path ∈ guessedPaths artifactId ∨ ∃ row, artifact = some row ∧ path = row.storagePath := by
  rw [deletionPaths, List.mem_eraseDups, List.mem_append]
  cases artifact <;> simp

/-- What the uploads so far tell about the rows. -/
structure Known (s : History) : Prop where
  row_path : ∀ row ∈ s.store.artifacts.rows, (row.id, row.storagePath) ∈ s.uploads
  one_path : ∀ id path path', (id, path) ∈ s.uploads → (id, path') ∈ s.uploads → path = path'

theorem known_start : Known start := by
  constructor
  · intro row hrow
    cases hrow
  · intro id path path' h
    cases h

/-- The rows after an operation on the store are old rows or the new one. -/
theorem mem_uploadArtifact {retentionHours : Int} {now createdAt : Time} {id contentType : String}
    {s : Store} {sizeBytes : ℕ} {attempt : UploadAttempt} {commits : Bool} {row : Artifact}
    (h : row ∈ (uploadArtifact retentionHours now createdAt id s sizeBytes contentType attempt
      commits).1.artifacts.rows) :
    row ∈ s.artifacts.rows ∨ (row.id = id ∧ row.storagePath = objectPath id contentType) := by
  unfold uploadArtifact at h
  dsimp only at h
  split at h
  · exact .inl h
  split at h
  · exact .inl h
  split at h
  · rcases List.mem_append.1 h with h | h
    · exact .inl h
    · rw [List.mem_singleton.1 h]
      exact .inr ⟨rfl, rfl⟩
  · exact .inl h

theorem mem_deleteArtifactFiles {s : Store} {attempts : String → DeleteAttempt} {commits : Bool}
    {row : Artifact}
    (h : row ∈ (deleteArtifactFiles s artifactId attempts commits).1.artifacts.rows) :
    row ∈ s.artifacts.rows := by
  unfold deleteArtifactFiles at h
  split at h
  · exact h
  split at h
  · exact h
  split at h
  · exact h
  split at h
  · exact h
  · exact (List.mem_filter.1 h).1

theorem known_step {retentionHours : Int} {s t : History} {op : Operation} (h : Known s)
    (hstep : step retentionHours s op = some t) : Known t := by
  cases op with
  | uploadArtifact now createdAt id contentType sizeBytes attempt commits =>
    simp only [step] at hstep
    split at hstep
    · rename_i hnew
      cases hstep
      obtain ⟨-, hfresh, -⟩ := hnew
      constructor
      · intro row hrow
        rcases mem_uploadArtifact hrow with hrow | ⟨hid, hpath⟩
        · exact List.mem_append_left _ (h.row_path row hrow)
        · rw [hid, hpath]
          exact List.mem_append_right _ (List.mem_singleton.2 rfl)
      · intro i path path' hp hp'
        rcases List.mem_append.1 hp with hp | hp <;> rcases List.mem_append.1 hp' with hp' | hp'
        · exact h.one_path i path path' hp hp'
        · cases List.mem_singleton.1 hp'
          exact absurd rfl (hfresh _ hp)
        · cases List.mem_singleton.1 hp
          exact absurd rfl (hfresh _ hp')
        · cases List.mem_singleton.1 hp
          cases List.mem_singleton.1 hp'
          rfl
    · cases hstep
  | cleanupArtifacts now =>
    cases hstep
    exact ⟨fun row hrow => h.row_path row (List.mem_filter.1 hrow).1, h.one_path⟩
  | deleteArtifactFiles artifactId attempts commits =>
    simp only [step, Option.ite_none_right_eq_some, Option.some.injEq] at hstep
    obtain ⟨-, rfl⟩ := hstep
    refine ⟨fun row hrow => ?_, h.one_path⟩
    dsimp only at hrow
    exact h.row_path row (mem_deleteArtifactFiles hrow)

/-- The outcomes of a deletion. -/
theorem deleteArtifactFiles_cases (s : Store) (artifactId : String)
    (attempts : String → DeleteAttempt) (commits : Bool) :
    (∃ e objects, deleteArtifactFiles s artifactId attempts commits =
        (⟨s.artifacts, objects⟩, .error e)) ∨
      ∃ id artifact objects, uuidOf artifactId ≠ none ∧ pgUuid artifactId = some id ∧
        artifact = s.artifacts.get id ∧
        deleteObjects attempts s.objects (deletionPaths artifactId artifact) =
          (objects, .ok ()) ∧
        deleteArtifactFiles s artifactId attempts commits =
          (⟨s.artifacts.filter fun row => artifact.all fun gone => row.id ≠ gone.id, objects⟩,
            .ok ()) := by
  unfold deleteArtifactFiles loadArtifact
  split
  · exact .inl ⟨_, s.objects, rfl⟩
  rename_i huuid
  cases hid : pgUuid artifactId with
  | none => exact .inl ⟨_, s.objects, rfl⟩
  | some id =>
    dsimp only
    split
    · exact .inl ⟨_, _, rfl⟩
    · rename_i objects hloop
      split
      · exact .inl ⟨_, _, rfl⟩
      · exact .inr ⟨id, _, objects, huuid, rfl, rfl, hloop, rfl⟩

theorem get_deleted (artifacts : ArtifactTable) (id : String) :
    (artifacts.filter fun row => (artifacts.get id).all fun gone => row.id ≠ gone.id).get id =
      none := by
  rw [Table.get_filter]
  cases h : artifacts.get id with
  | none => rfl
  | some row => simp [Option.filter]

theorem triedPaths_of_pgUuid {artifacts : ArtifactTable} {id : String}
    (h : pgUuid artifactId = some id) :
    triedPaths artifacts artifactId = deletionPaths artifactId (artifacts.get id) := by
  simp only [triedPaths, loadArtifact, h]

/-- A deletion that raises keeps the row, whatever the storage has done. -/
theorem settled_of_error {objects : Finset String} {e : ArtifactError} :
    Settled s artifactId (⟨s.store.artifacts, objects⟩, .error e) := by
  intro id hid
  constructor
  · intro h
    cases h
  · intro _
    rfl

theorem settled_of_deletable (hknown : Known s) (h : Deletable s artifactId) :
    AlwaysSettled s artifactId := by
  intro attempts commits hlawful
  rcases deleteArtifactFiles_cases s.store artifactId attempts commits with
    ⟨e, objects, hr⟩ | ⟨id, artifact, objects, huuid, hid, hartifact, hloop, hr⟩
  · rw [hr]
    exact settled_of_error
  · rw [hr]
    intro id' hid'
    obtain rfl : id = id' := Option.some.inj (hid.symm.trans hid')
    refine ⟨fun _ => ⟨hartifact ▸ get_deleted _ _, fun path hupload hpath => ?_⟩,
      fun hne => absurd rfl hne⟩
    have hpath' : path ∈ (deleteObjects attempts s.store.objects
        (deletionPaths artifactId artifact)).1 := by rw [hloop]; exact hpath
    have hbefore : path ∈ s.store.objects := deleteObjects_subset hpath'
    have htried : path ∈ deletionPaths artifactId artifact := by
      rw [mem_deletionPaths]
      rcases (h.resolve_left huuid) id hid with hrow | hguessed
      · obtain ⟨row, hrow⟩ := Option.ne_none_iff_exists'.1 hrow
        have hkey : row.id = id := Table.key_of_get hrow
        have hsame := hknown.row_path row (Table.mem_of_get hrow)
        rw [hkey] at hsame
        exact .inr ⟨row, hartifact.trans hrow, hknown.one_path id _ _ hupload hsame⟩
      · exact .inl (hguessed path hupload hbefore)
    refine not_mem_deleteObjects ?_ (by rw [hloop]) htried hpath'
    intro p hp
    refine hlawful p ?_
    rwa [triedPaths_of_pgUuid hid, ← hartifact]

/-- With a truthful storage the deletion goes through, and what it did not try stays. -/
theorem deletable_of_settled (h : AlwaysSettled s artifactId) : Deletable s artifactId := by
  by_cases huuid : uuidOf artifactId = none
  · exact .inl huuid
  refine .inr fun id hid => ?_
  by_cases hrow : s.store.artifacts.get id = none
  swap
  · exact .inl hrow
  refine .inr fun path hupload hpath => ?_
  by_contra hnot
  have hgoes : (deleteArtifactFiles s.store artifactId (truthful s.store.objects) true) =
      (⟨s.store.artifacts.filter fun _ => true,
        (deleteObjects (truthful s.store.objects) s.store.objects
          (deletionPaths artifactId none)).1⟩, .ok ()) := by
    have hloop : (deleteObjects (truthful s.store.objects) s.store.objects
        (deletionPaths artifactId none)).2 = .ok () := deleteObjects_truthful s.store.objects
    simp only [deleteArtifactFiles, if_neg huuid, loadArtifact, hid, hrow]
    split
    · rename_i hsplit
      rw [hsplit] at hloop
      cases hloop
    · rename_i hsplit
      rw [hsplit]
      rfl
  have hsettled := h (truthful s.store.objects) true fun _ _ => truthful_lawful
  rw [hgoes] at hsettled
  refine ((hsettled id hid).1 rfl).2 path hupload (mem_deleteObjects hpath ?_)
  rw [mem_deletionPaths]
  rintro (hguessed | ⟨row, hnone, -⟩)
  · exact hnot hguessed
  · cases hnone

end Deletion

/-- At every point of every history, a deletion settles its artifact, whatever happens on
the way, exactly if its row is still there, or whatever is left of it lies under the paths
guessed from the id. Hence no deletion of a history that meets this fails to settle. -/
theorem deletions_settle_iff (retentionHours : Int) :
    (∀ ops s, exec (step retentionHours) start ops = some s → ∀ artifactId,
      AlwaysSettled s artifactId ↔ Deletable s artifactId) ∧
    ∀ ops, Along (step retentionHours) (fun s op => ∀ artifactId attempts commits,
        op = .deleteArtifactFiles artifactId attempts commits → Deletable s artifactId) start ops →
      Along (step retentionHours) (fun s op => ∀ artifactId attempts commits,
        op = .deleteArtifactFiles artifactId attempts commits →
          Settled s artifactId (deleteArtifactFiles s.store artifactId attempts commits))
        start ops := by
  have hknown : ∀ s op t, Known s → step retentionHours s op = some t → Known t :=
    fun s op t h hstep => known_step h hstep
  constructor
  · intro ops s hrun artifactId
    exact ⟨deletable_of_settled, settled_of_deletable (invariant hknown known_start hrun)⟩
  · intro ops hops
    refine hops.imp (fun s op t hs _ => hknown s op t hs) ?_ known_start
    rintro s op t hs hdeletable hstep artifactId attempts commits rfl
    simp only [step, Option.ite_none_right_eq_some] at hstep
    exact settled_of_deletable hs (hdeletable artifactId attempts commits rfl) attempts commits
      hstep.1

/-- The id of an artifact. -/
def someId : String := "a0eebc99-9c0b-4ef8-bb6d-6bb9bd380a11"

/-- A file of no known image type is uploaded and outlives its row. -/
def expiredUpload (contentType : String) : List Operation :=
  [.uploadArtifact 0 0 someId contentType 10 ⟨.ok, true⟩ true, .cleanupArtifacts (hours 200)]

/-- What is left then: the object. -/
def leftover (contentType : String) : History where
  store := ⟨Table.empty, insert (objectPath someId contentType) ∅⟩
  uploads := [(someId, objectPath someId contentType)]

theorem someId_canonical : pgUuid someId = some someId := by
  decide +kernel

theorem exec_expiredUpload (contentType : String) :
    exec (step 168) start (expiredUpload contentType) = some (leftover contentType) := by
  have hupload : step 168 start
      (.uploadArtifact 0 0 someId contentType 10 ⟨.ok, true⟩ true) =
      some ⟨⟨⟨[newArtifact 168 0 0 someId contentType 10], List.nodup_singleton _⟩,
        insert (objectPath someId contentType) ∅⟩, [(someId, objectPath someId contentType)]⟩ := by
    simp only [step]
    rw [if_pos ⟨someId_canonical, by simp [start], fun _ => trivial⟩]
    rfl
  rw [expiredUpload, exec_cons_of_step hupload]
  rfl

/-- An image is deleted although its row is gone, and an unknown id is deleted as well. -/
theorem deletions_settle_iff_expiredUpload :
    AlwaysSettled (leftover "image/png") someId ∧
      Settled start someId
        (deleteArtifactFiles start.store someId (fun _ => ⟨.status 404, false⟩) true) := by
  constructor
  · refine ((deletions_settle_iff 168).1 _ _ (exec_expiredUpload "image/png") someId).2 (.inr ?_)
    intro id hid
    refine .inr fun path hpath _ => ?_
    rw [leftover, List.mem_singleton, Prod.mk.injEq] at hpath
    rw [hpath.2]
    decide
  · have hlawful : Lawful start.store someId fun _ => ⟨.status 404, false⟩ :=
      fun path _ _ => Finset.notMem_empty path
    have hstep : ∃ t, step 168 start
        (.deleteArtifactFiles someId (fun _ => ⟨.status 404, false⟩) true) = some t := by
      simp only [step, if_pos hlawful, Option.some.injEq, exists_eq']
    obtain ⟨t, ht⟩ := hstep
    have halong := (deletions_settle_iff 168).2
      [.deleteArtifactFiles someId (fun _ => ⟨.status 404, false⟩) true]
      ((along_cons_of_step ht []).2 ⟨?_, trivial⟩)
    · exact ((along_cons_of_step ht []).1 halong).1 _ _ _ rfl
    · intro artifactId attempts commits _
      exact .inr fun id _ => .inr fun path hpath => by simp [start] at hpath

/-- A file of no known image type stays in the bucket when its deletion is reported. -/
theorem deletions_not_settled :
    ¬∀ ops s, exec (step 168) start ops = some s → ∀ artifactId, AlwaysSettled s artifactId := by
  intro hall
  have hsettled := hall _ _ (exec_expiredUpload "application/octet-stream") someId
  rcases deletable_of_settled hsettled with huuid | hdeletable
  · exact absurd huuid (by decide +kernel)
  rcases hdeletable someId someId_canonical with hrow | hguessed
  · exact hrow rfl
  · have hleft := hguessed someId (by decide) (by decide)
    exact absurd hleft (by decide)

end TaskQueue.ArtifactDeletion

import TaskQueue.SessionServices

/-!
# Ids as callers write them

The six calls of the services that look a row up by the text of its id, with a record of
the texts that they bind to uuid columns and of the rows that they find. `uuid.UUID` and the
database read such a text by different rules.
-/

namespace TaskQueue.MalformedIds
open KeyedTables Uuid StateExceptions
open SessionServices (Raised Tables taskNotFound)
open ArtifactService (Artifact ArtifactTable ArtifactError Store DeleteAttempt)
open WorkerService (Heartbeat)
open TaskService (Outcome)

variable {Json : Type}

inductive Event
  | sent (text : String)
  | found (id : String)
  deriving DecidableEq

/-- A call with the events so far. -/
abbrev Traced (α : Type) := ExceptT Raised (StateM (List Event)) α

def note (event : Event) : Traced Unit := modify fun events => events ++ [event]

/-- A text bound to a uuid column. -/
def bindUuid (text : String) : Traced String := do
  note (.sent text)
  match pgUuid text with
  | none => throw .databaseError
  | some id => return id

/-- `db.get`. -/
def lookUp {ρ : Type} (get : String → Option ρ) (text : String) : Traced (Option ρ) := do
  let id ← bindUuid text
  match get id with
  | none => return none
  | some row =>
    note (.found id)
    return some row

def checked {ε α : Type} (convert : ε → Raised) (x : Except ε α) : Traced α :=
  match x with
  | .error e => throw (convert e)
  | .ok a => return a

/-- The `try` statement before a lookup. -/
def guardUuid (text : String) (notFound : Raised) : Traced Unit :=
  if uuidOf text = none then throw notFound else return

/-- `get_task`. -/
def getTask (tasks : TaskTable Json) (taskId : String) : Traced (Task Json) := do
  guardUuid taskId (taskNotFound taskId)
  match ← lookUp tasks.get taskId with
  | none => throw (taskNotFound taskId)
  | some task => return task

/-- The common body of `complete_task` and `fail_task`. -/
def settleTask (now : Time) (tasks : TaskTable Json) (taskId claimToken : String)
    (outcome : Outcome Json) : Traced (Task Json) := do
  let task ← getTask tasks taskId
  checked .service (TaskService.checkClaim taskId claimToken task)
  return TaskService.settleRow outcome now task

/-- `complete_task`. -/
def completeTask (now : Time) (tasks : TaskTable Json) (taskId claimToken : String)
    (result : Json) : Traced (Task Json) :=
  settleTask now tasks taskId claimToken (.complete result)

/-- `fail_task`. -/
def failTask (now : Time) (tasks : TaskTable Json) (taskId claimToken error : String) :
    Traced (Task Json) :=
  settleTask now tasks taskId claimToken (.fail error)

/-- `get_artifact`. -/
def getArtifact (artifacts : ArtifactTable) (artifactId : String) : Traced Artifact := do
  guardUuid artifactId (.artifact (ArtifactService.notFound artifactId))
  match ← lookUp artifacts.get artifactId with
  | none => throw (.artifact (ArtifactService.notFound artifactId))
  | some artifact => return artifact

/-- `delete_artifact_files`: without a row it goes on and tries the guessed paths. -/
def deleteArtifactFiles (s : Store) (artifactId : String) (attempts : String → DeleteAttempt) :
    Traced Store := do
  guardUuid artifactId (.artifact (ArtifactService.notFound artifactId))
  let artifact ← lookUp s.artifacts.get artifactId
  let deleted := ArtifactService.deleteObjects attempts s.objects
    (ArtifactService.deletionPaths artifactId artifact)
  checked .artifact deleted.2
  return ⟨s.artifacts.filter fun row => artifact.all fun gone => row.id ≠ gone.id, deleted.1⟩

/-- `heartbeat` for a worker that names a task. At the commit the row of the worker takes
the same text. -/
def heartbeat (now : Time) (d : Tables Json) (req : Heartbeat Json) (taskId : String) :
    Traced (Tables Json) := do
  checked .service (WorkerService.checkWorker { req with currentTaskId := some taskId }
    (d.workers.get req.workerId))
  let task ← lookUp d.tasks.get taskId
  checked .service (WorkerService.checkTask req taskId task)
  let _ ← bindUuid taskId
  return SessionServices.beaten now { req with currentTaskId := some taskId } d

/-- The calls that take the text of an id. -/
inductive Call (Json : Type)
  | getTask (taskId : String)
  | completeTask (taskId claimToken : String) (result : Json)
  | failTask (taskId claimToken error : String)
  | getArtifact (artifactId : String)
  | deleteArtifactFiles (artifactId : String) (attempts : String → DeleteAttempt)
  | heartbeat (req : Heartbeat Json) (taskId : String)

/-- A call, for its events and its exception. -/
def Call.run (now : Time) (d : Tables Json) (objects : Finset String) : Call Json → Traced Unit
  | .getTask taskId => do let _ ← MalformedIds.getTask d.tasks taskId
  | .completeTask taskId claimToken result => do
    let _ ← MalformedIds.completeTask now d.tasks taskId claimToken result
  | .failTask taskId claimToken error => do
    let _ ← MalformedIds.failTask now d.tasks taskId claimToken error
  | .getArtifact artifactId => do let _ ← MalformedIds.getArtifact d.artifacts artifactId
  | .deleteArtifactFiles artifactId attempts => do
    let _ ← MalformedIds.deleteArtifactFiles ⟨d.artifacts, objects⟩ artifactId attempts
  | .heartbeat req taskId => do let _ ← MalformedIds.heartbeat now d req taskId

/-- `TaskServiceError`, `ArtifactServiceError` or `WorkerServiceError`. -/
def Raised.own : Raised → Bool
  | .service (.taskServiceError _) | .service (.workerServiceError _)
  | .artifact (.artifactServiceError _) => true
  | _ => false

/-- Every text that has been bound is one that the database reads. -/
def AllRead (events : List Event) : Prop := ∀ text, .sent text ∈ events → pgUuid text ≠ none

def Found (events : List Event) : Prop := ∃ id, .found id ∈ events

/-- The call binds readable texts only, and it finds a row or raises the service's error. -/
structure Guarded (m : Traced Unit) : Prop where
  sent : AllRead (runFrom m []).2
  ends : Found (runFrom m []).2 ∨ ∃ e, (runFrom m []).1 = .error e ∧ Raised.own e = true

/-- A registered worker of the current session that is busy, with progress in range. -/
def Admitted (d : Tables Json) (req : Heartbeat Json) : Prop :=
  ∃ worker, d.workers.get req.workerId = some worker ∧ worker.sessionId = req.sessionId ∧
    req.state = .busy ∧ WorkerService.ProgressInRange req.progressCurrent req.progressTotal

/-- The texts on which a call behaves: both readers know them or neither does; for a deletion
also that the row exists, and for a heartbeat, which asks `uuid.UUID` nothing, that it is
refused for another reason or the database reads the text. -/
def Call.Harmless (d : Tables Json) : Call Json → Prop
  | .getTask text | .completeTask text _ _ | .failTask text _ _ | .getArtifact text =>
    uuidOf text = none ↔ pgUuid text = none
  | .deleteArtifactFiles text _ =>
    uuidOf text = none ∨ ∃ id, pgUuid text = some id ∧ d.artifacts.get id ≠ none
  | .heartbeat req text => ¬Admitted d req ∨ pgUuid text ≠ none

section Rules
variable {ρ α β : Type} {get : String → Option ρ} {text : String} {events : List Event}

theorem AllRead.sent (h : AllRead events) (hread : pgUuid text ≠ none) :
    AllRead (events ++ [.sent text]) := by
  intro text' hmem
  rcases List.mem_append.1 hmem with hmem | hmem
  · exact h text' hmem
  · cases List.mem_singleton.1 hmem
    exact hread

theorem AllRead.found (h : AllRead events) (id : String) : AllRead (events ++ [.found id]) := by
  intro text' hmem
  rcases List.mem_append.1 hmem with hmem | hmem
  · exact h text' hmem
  · cases List.mem_singleton.1 hmem

theorem Found.append (h : Found events) (event : Event) : Found (events ++ [event]) := by
  obtain ⟨id, hid⟩ := h
  exact ⟨id, List.mem_append_left _ hid⟩

/-- How a call ends that behaves. -/
def Ends (e : Raised) (events : List Event) : Prop :=
  AllRead events ∧ (Found events ∨ Raised.own e = true)

theorem bindUuid_read (h : pgUuid text ≠ none) {P : List Event → Prop}
    (hP : ∀ events, P events → P (events ++ [.sent text])) {E : Raised → List Event → Prop} :
    Triple P (bindUuid text) (fun id events => P events ∧ pgUuid text = some id) E := by
  obtain ⟨id, hid⟩ := Option.ne_none_iff_exists'.1 h
  rw [bindUuid, hid]
  refine Triple.bind (Q := fun _ => P) (Triple.of_modify hP) ?_
  intro _
  exact Triple.of_pure fun events hevents => ⟨hevents, rfl⟩

/-- A text that the database does not read is sent all the same. -/
theorem bindUuid_unread (h : pgUuid text = none) {P : List Event → Prop} :
    Triple P (bindUuid text) (fun _ _ => False) (fun _ events => .sent text ∈ events) := by
  rw [bindUuid, h]
  refine Triple.bind (Q := fun _ events => .sent text ∈ events)
    (Triple.of_modify fun events _ => by simp) ?_
  intro _
  exact Triple.of_throw fun events hevents => hevents

/-- A lookup binds its text, and notes a row if there is one. -/
theorem lookUp_read {id : String} (h : pgUuid text = some id) {E : Raised → List Event → Prop} :
    Triple AllRead (lookUp get text)
      (fun row events => row = get id ∧ AllRead events ∧ (row ≠ none → Found events)) E := by
  have hread : pgUuid text ≠ none := h ▸ nofun
  refine Triple.bind (bindUuid_read hread fun events hevents => hevents.sent hread) ?_
  intro id'
  by_cases hid : id' = id
  · subst hid
    cases hget : get id' with
    | none =>
      exact Triple.of_pure fun events hevents =>
        ⟨rfl, hevents.1, fun hrow => absurd rfl hrow⟩
    | some row =>
      refine Triple.bind (Q := fun _ events => AllRead events ∧ Found events) ?_ ?_
      · exact Triple.of_modify fun events hevents => ⟨hevents.1.found id', id', by simp⟩
      · intro _
        exact Triple.of_pure fun events hevents => ⟨rfl, hevents.1, fun _ => hevents.2⟩
  · refine Triple.of_false fun events hevents => hid ?_
    exact Option.some.inj (hevents.2.symm.trans h)

/-- A lookup without a row notes none. -/
theorem lookUp_absent {id : String} (h : pgUuid text = some id) (hrow : get id = none)
    {E : Raised → List Event → Prop} :
    Triple (fun events => AllRead events ∧ ¬Found events) (lookUp get text)
      (fun _ events => ¬Found events) E := by
  rw [lookUp, bindUuid, h]
  have hsent : ∀ events, AllRead events ∧ ¬Found events → ¬Found (events ++ [.sent text]) := by
    rintro events ⟨-, habsent⟩ ⟨id, hmem⟩
    exact habsent ⟨id, by simpa using hmem⟩
  refine Triple.bind (Q := fun id' events => id' = id ∧ ¬Found events) ?_ ?_
  · refine Triple.bind (Q := fun _ events => ¬Found events) (Triple.of_modify hsent) ?_
    intro _
    exact Triple.of_pure fun events hevents => ⟨rfl, hevents⟩
  · intro id'
    by_cases hid : id' = id
    · rw [hid, hrow]
      exact Triple.of_pure fun events hevents => hevents.2
    · exact Triple.of_false fun events hevents => hid hevents.1

/-- A lookup whose text is not read raises, and whatever would have followed does not. -/
theorem lookUp_unread (h : pgUuid text = none) {P : List Event → Prop}
    {f : Option ρ → Traced α} {Q : α → List Event → Prop} :
    Triple P (lookUp get text >>= f) Q (fun _ events => .sent text ∈ events) := by
  refine Triple.bind (Q := fun _ _ => False) ?_ fun _ => Triple.of_false fun _ hfalse => hfalse
  exact Triple.bind (bindUuid_unread h) fun _ => Triple.of_false fun _ hfalse => hfalse

theorem guardUuid_rejects {notFound : Raised} (h : uuidOf text = none) {P : List Event → Prop}
    {f : Unit → Traced α} {Q : α → List Event → Prop} {E : Raised → List Event → Prop}
    (hE : ∀ events, P events → E notFound events) :
    Triple P (guardUuid text notFound >>= f) Q E := by
  refine Triple.bind (Q := fun _ _ => False) ?_ fun _ => Triple.of_false fun _ hfalse => hfalse
  rw [guardUuid, if_pos h]
  exact Triple.of_throw hE

theorem guardUuid_admits {notFound : Raised} (h : uuidOf text ≠ none) {P : List Event → Prop}
    {f : Unit → Traced α} {Q : α → List Event → Prop} {E : Raised → List Event → Prop}
    (hf : Triple P (f ()) Q E) : Triple P (guardUuid text notFound >>= f) Q E := by
  refine Triple.bind (Q := fun _ => P) ?_ fun _ => hf
  rw [guardUuid, if_neg h]
  exact Triple.of_pure fun _ hP => hP

theorem checked_found {ε : Type} {convert : ε → Raised} {x : Except ε α} :
    Triple (fun events => AllRead events ∧ Found events) (checked convert x)
      (fun _ events => AllRead events ∧ Found events) Ends := by
  cases x with
  | error e => exact Triple.of_throw fun events hevents => ⟨hevents.1, .inl hevents.2⟩
  | ok a => exact Triple.of_pure fun events hevents => hevents

/-- A call that behaves, as a triple. -/
theorem guarded_of_triple {m : Traced α}
    (h : Triple AllRead m (fun _ events => AllRead events ∧ Found events) Ends) :
    Guarded (do let _ ← m) := by
  have hnil : AllRead [] := fun _ hmem => nomatch hmem
  rcases hrun : runFrom m [] with ⟨e | a, events⟩
  · obtain ⟨hread, hends⟩ := h.raises [] e events hnil hrun
    have hm := runFrom_bind_error (f := fun _ => (pure () : Traced Unit)) hrun
    exact ⟨by rw [hm]; exact hread, by rw [hm]; exact hends.imp_right fun hown => ⟨e, rfl, hown⟩⟩
  · obtain ⟨hread, hfound⟩ := h.returns [] a events hnil hrun
    have hm := runFrom_bind_ok (f := fun _ => (pure () : Traced Unit)) hrun
    exact ⟨by rw [hm]; exact hread, by rw [hm]; exact .inl hfound⟩

/-- A call that sends a text which the database does not read. -/
theorem not_guarded_of_sent {m : Traced α} (h : pgUuid text = none)
    (hsent : Triple (fun events => events = []) m (fun _ events => .sent text ∈ events)
      (fun _ events => .sent text ∈ events)) : ¬Guarded (do let _ ← m) := by
  intro hguarded
  refine hguarded.sent text ?_ h
  rcases hrun : runFrom m [] with ⟨e | a, events⟩
  · rw [runFrom_bind_error hrun]
    exact hsent.raises [] e events rfl hrun
  · rw [runFrom_bind_ok hrun]
    exact hsent.returns [] a events rfl hrun

end Rules

/-- The readers disagree only on texts that the database alone refuses. -/
theorem readers_agree_iff {text : String} :
    (uuidOf text = none ↔ pgUuid text = none) ↔ uuidOf text = none ∨ pgUuid text ≠ none := by
  by_cases hshape : uuidOf text = none
  · have hnone : pgUuid text = none := by
      by_contra hread
      obtain ⟨id, hid⟩ := Option.ne_none_iff_exists'.1 hread
      exact uuidOf_of_pgUuid hid hshape
    simp [hshape, hnone]
  · simp [hshape]

section Calls
variable {α : Type} {now : Time} {d : Tables Json} {text : String}

theorem getTask_read {tasks : TaskTable Json} (h : uuidOf text = none ∨ pgUuid text ≠ none) :
    Triple AllRead (getTask tasks text) (fun _ events => AllRead events ∧ Found events) Ends := by
  by_cases hshape : uuidOf text = none
  · exact guardUuid_rejects hshape fun events hevents => ⟨hevents, .inr rfl⟩
  · obtain ⟨id, hid⟩ := Option.ne_none_iff_exists'.1 (h.resolve_left hshape)
    refine guardUuid_admits hshape (Triple.bind (lookUp_read hid) ?_)
    intro row
    cases row with
    | none => exact Triple.of_throw fun events hevents => ⟨hevents.2.1, .inr rfl⟩
    | some task => exact Triple.of_pure fun events hevents => ⟨hevents.2.1, hevents.2.2 nofun⟩

theorem settleTask_read {tasks : TaskTable Json} {claimToken : String} {outcome : Outcome Json}
    (h : uuidOf text = none ∨ pgUuid text ≠ none) :
    Triple AllRead (settleTask now tasks text claimToken outcome)
      (fun _ events => AllRead events ∧ Found events) Ends := by
  refine Triple.bind (getTask_read h) ?_
  intro task
  refine Triple.bind checked_found ?_
  intro _
  exact Triple.of_pure fun events hevents => hevents

theorem getArtifact_read {artifacts : ArtifactTable}
    (h : uuidOf text = none ∨ pgUuid text ≠ none) :
    Triple AllRead (getArtifact artifacts text)
      (fun _ events => AllRead events ∧ Found events) Ends := by
  by_cases hshape : uuidOf text = none
  · exact guardUuid_rejects hshape fun events hevents => ⟨hevents, .inr rfl⟩
  · obtain ⟨id, hid⟩ := Option.ne_none_iff_exists'.1 (h.resolve_left hshape)
    refine guardUuid_admits hshape (Triple.bind (lookUp_read hid) ?_)
    intro row
    cases row with
    | none => exact Triple.of_throw fun events hevents => ⟨hevents.2.1, .inr rfl⟩
    | some artifact => exact Triple.of_pure fun events hevents => ⟨hevents.2.1, hevents.2.2 nofun⟩

theorem checked_service {x : Except ServiceError α} {P : List Event → Prop}
    {E : Raised → List Event → Prop} (hE : ∀ e events, x = .error e → P events →
      E (.service e) events) :
    Triple P (checked .service x) (fun a events => P events ∧ x = .ok a) E := by
  cases x with
  | error e => exact Triple.of_throw fun events hevents => hE e events rfl hevents
  | ok a => exact Triple.of_pure fun events hevents => ⟨hevents, rfl⟩

theorem checkWorker_own {req : Heartbeat Json} {worker : Option (Worker Json)} {e : ServiceError}
    (h : WorkerService.checkWorker req worker = .error e) : Raised.own (.service e) = true := by
  unfold WorkerService.checkWorker at h
  repeat' split at h
  all_goals cases h
  all_goals rfl

theorem checkTask_own {req : Heartbeat Json} {task : Option (Task Json)} {e : ServiceError}
    (h : WorkerService.checkTask req text task = .error e) : Raised.own (.service e) = true := by
  unfold WorkerService.checkTask at h
  repeat' split at h
  all_goals cases h
  all_goals rfl

theorem admitted_iff {req : Heartbeat Json} :
    WorkerService.checkWorker { req with currentTaskId := some text }
      (d.workers.get req.workerId) = .ok () ↔ Admitted d req := by
  rw [WorkerService.checkWorker_ok_iff, Admitted]
  simp

theorem heartbeat_read {req : Heartbeat Json} (h : ¬Admitted d req ∨ pgUuid text ≠ none) :
    Triple AllRead (heartbeat now d req text)
      (fun _ events => AllRead events ∧ Found events) Ends := by
  refine Triple.bind (checked_service fun e events he hevents =>
    ⟨hevents, .inr (checkWorker_own he)⟩) ?_
  intro _
  by_cases hadmitted : Admitted d req
  · have hread := h.resolve_left (not_not.2 hadmitted)
    obtain ⟨id, hid⟩ := Option.ne_none_iff_exists'.1 hread
    refine Triple.bind ((lookUp_read hid).pre fun events hevents => hevents.1) ?_
    intro task
    cases htask : WorkerService.checkTask req text task with
    | error e =>
      refine Triple.bind (Q := fun _ _ => False) ?_ fun _ => Triple.of_false fun _ hfalse => hfalse
      exact Triple.of_throw fun events hevents => ⟨hevents.2.1, .inr (checkTask_own htask)⟩
    | ok u =>
      obtain ⟨row, hrow, -⟩ := WorkerService.checkTask_ok_iff.1 htask
      have hfound : task ≠ none := hrow ▸ nofun
      refine Triple.bind (Q := fun _ events => AllRead events ∧ Found events)
        (Triple.of_pure fun events hevents => ⟨hevents.2.1, hevents.2.2 hfound⟩) ?_
      intro _
      refine Triple.bind (bindUuid_read hread fun events hevents =>
        ⟨hevents.1.sent hread, hevents.2.append _⟩) ?_
      intro _
      exact Triple.of_pure fun events hevents => hevents.1
  · exact Triple.of_false fun events hevents => hadmitted (admitted_iff.1 hevents.2)

theorem deleteArtifactFiles_read {s : Store} {attempts : String → DeleteAttempt}
    (h : uuidOf text = none ∨ ∃ id, pgUuid text = some id ∧ s.artifacts.get id ≠ none) :
    Triple AllRead (deleteArtifactFiles s text attempts)
      (fun _ events => AllRead events ∧ Found events) Ends := by
  by_cases hshape : uuidOf text = none
  · exact guardUuid_rejects hshape fun events hevents => ⟨hevents, .inr rfl⟩
  · obtain ⟨id, hid, hrow⟩ := h.resolve_left hshape
    refine guardUuid_admits hshape (Triple.bind (lookUp_read hid) ?_)
    intro artifact
    refine Triple.bind (checked_found.pre fun events hevents =>
      ⟨hevents.2.1, hevents.2.2 (hevents.1 ▸ hrow)⟩) ?_
    intro _
    exact Triple.of_pure fun events hevents => hevents

theorem bind_absurd {β : Type} {m : Traced α} {f : α → Traced β} {P : List Event → Prop}
    {Q : β → List Event → Prop} {E : Raised → List Event → Prop}
    (h : Triple P m (fun _ _ => False) E) : Triple P (m >>= f) Q E :=
  Triple.bind h fun _ => Triple.of_false fun _ hfalse => hfalse

theorem getTask_unread {tasks : TaskTable Json} {P : List Event → Prop}
    (hshape : uuidOf text ≠ none) (h : pgUuid text = none) :
    Triple P (getTask tasks text) (fun _ _ => False) (fun _ events => .sent text ∈ events) :=
  guardUuid_admits hshape (lookUp_unread h)

theorem getArtifact_unread {artifacts : ArtifactTable} {P : List Event → Prop}
    (hshape : uuidOf text ≠ none) (h : pgUuid text = none) :
    Triple P (getArtifact artifacts text) (fun _ _ => False)
      (fun _ events => .sent text ∈ events) :=
  guardUuid_admits hshape (lookUp_unread h)

theorem heartbeat_unread {req : Heartbeat Json} {P : List Event → Prop} (hadmitted : Admitted d req)
    (h : pgUuid text = none) : Triple P (heartbeat now d req text) (fun _ _ => False)
      (fun _ events => .sent text ∈ events) := by
  rw [heartbeat, admitted_iff.2 hadmitted]
  refine Triple.bind (Q := fun _ => P) (Triple.of_pure fun events hevents => hevents) ?_
  intro _
  exact lookUp_unread h

/-- The loop over the paths raises what the storage raises. -/
theorem deleteObjects_error {attempts : String → DeleteAttempt} {objects : Finset String}
    {paths : List String} {e : ArtifactError}
    (h : (ArtifactService.deleteObjects attempts objects paths).2 = .error e) :
    e = .storageError := by
  induction paths generalizing objects with
  | nil => cases h
  | cons path paths ih =>
    rw [ArtifactService.deleteObjects] at h
    split at h
    · exact ih h
    · exact (Except.error.inj h).symm

/-- A deletion goes on without a row, and raises nothing but what the storage raises. -/
theorem deleteArtifactFiles_absent {s : Store} {attempts : String → DeleteAttempt} {id : String}
    (hshape : uuidOf text ≠ none) (hid : pgUuid text = some id)
    (hrow : s.artifacts.get id = none) :
    Triple (fun events => AllRead events ∧ ¬Found events) (deleteArtifactFiles s text attempts)
      (fun _ events => ¬Found events)
      (fun e events => ¬Found events ∧ Raised.own e = false) := by
  refine guardUuid_admits hshape (Triple.bind (lookUp_absent hid hrow) ?_)
  intro artifact
  cases hdeleted : (ArtifactService.deleteObjects attempts s.objects
      (ArtifactService.deletionPaths text artifact)).2 with
  | error e =>
    dsimp only
    rw [hdeleted, deleteObjects_error hdeleted]
    exact bind_absurd (Triple.of_throw fun events hevents => ⟨hevents, rfl⟩)
  | ok u =>
    dsimp only
    rw [hdeleted]
    refine Triple.bind (Q := fun _ events => ¬Found events)
      (Triple.of_pure fun events hevents => hevents) ?_
    intro _
    exact Triple.of_pure fun events hevents => hevents

theorem not_guarded_of_absent {m : Traced α}
    (h : Triple (fun events => AllRead events ∧ ¬Found events) m (fun _ events => ¬Found events)
      (fun e events => ¬Found events ∧ Raised.own e = false)) :
    ¬Guarded (do let _ ← m) := by
  have hnil : AllRead [] ∧ ¬Found [] := by simp [AllRead, Found]
  intro hguarded
  have hends := hguarded.ends
  rcases hrun : runFrom m [] with ⟨e | a, events⟩
  · rw [runFrom_bind_error hrun] at hends
    obtain ⟨habsent, hforeign⟩ := h.raises [] e events hnil hrun
    rcases hends with hfound | ⟨e', he', hown⟩
    · exact habsent hfound
    · rw [← Except.error.inj he', hforeign] at hown
      cases hown
  · rw [runFrom_bind_ok hrun] at hends
    rcases hends with hfound | ⟨e', he', -⟩
    · exact h.returns [] a events hnil hrun hfound
    · cases he'

end Calls

section Texts
variable {α : Type} {m : Traced α}

/-- A call on a text that passes its checks behaves only if the database reads the text. -/
theorem guarded_iff_of_triples (text : String) {harmless : Prop}
    (hread : harmless → Triple AllRead m (fun _ events => AllRead events ∧ Found events) Ends)
    (hunread : ¬harmless → pgUuid text = none ∧
      Triple (fun events => events = []) m (fun _ _ => False)
        (fun _ events => .sent text ∈ events)) :
    Guarded (do let _ ← m) ↔ harmless := by
  constructor
  · intro hguarded
    by_contra hharm
    obtain ⟨hnone, hsent⟩ := hunread hharm
    exact not_guarded_of_sent hnone (hsent.post fun _ _ hfalse => hfalse.elim) hguarded
  · exact fun hharmless => guarded_of_triple (hread hharmless)

end Texts

theorem run_guarded_iff (now : Time) (d : Tables Json) (objects : Finset String)
    (call : Call Json) : Guarded (call.run now d objects) ↔ call.Harmless d := by
  have hguard : ∀ text, ¬(uuidOf text = none ↔ pgUuid text = none) →
      uuidOf text ≠ none ∧ pgUuid text = none := by
    intro text h
    rw [readers_agree_iff, not_or, not_ne_iff] at h
    exact h
  cases call with
  | getTask text =>
    refine guarded_iff_of_triples text (fun h => getTask_read (readers_agree_iff.1 h)) fun h => ?_
    obtain ⟨hshape, hnone⟩ := hguard text h
    exact ⟨hnone, getTask_unread hshape hnone⟩
  | completeTask text claimToken result =>
    refine guarded_iff_of_triples text (fun h => settleTask_read (readers_agree_iff.1 h)) fun h => ?_
    obtain ⟨hshape, hnone⟩ := hguard text h
    exact ⟨hnone, bind_absurd (getTask_unread hshape hnone)⟩
  | failTask text claimToken error =>
    refine guarded_iff_of_triples text (fun h => settleTask_read (readers_agree_iff.1 h)) fun h => ?_
    obtain ⟨hshape, hnone⟩ := hguard text h
    exact ⟨hnone, bind_absurd (getTask_unread hshape hnone)⟩
  | getArtifact text =>
    refine guarded_iff_of_triples text (fun h => getArtifact_read (readers_agree_iff.1 h)) fun h => ?_
    obtain ⟨hshape, hnone⟩ := hguard text h
    exact ⟨hnone, getArtifact_unread hshape hnone⟩
  | heartbeat req text =>
    refine guarded_iff_of_triples text heartbeat_read fun h => ?_
    obtain ⟨hadmitted, hnone⟩ := not_or.1 h
    exact ⟨not_not.1 hnone, heartbeat_unread (not_not.1 hadmitted) (not_not.1 hnone)⟩
  | deleteArtifactFiles text attempts =>
    constructor
    · intro hguarded
      by_cases hshape : uuidOf text = none
      · exact .inl hshape
      · cases hid : pgUuid text with
        | none => exact absurd hguarded (not_guarded_of_sent hid (guardUuid_admits hshape
            (lookUp_unread hid)))
        | some id =>
          refine .inr ⟨id, hid, fun hrow => ?_⟩
          exact not_guarded_of_absent (deleteArtifactFiles_absent hshape hid hrow) hguarded
    · exact fun hharmless => guarded_of_triple (deleteArtifactFiles_read hharmless)

/-- One worker, busy on a task that is not there. -/
def oneWorker : Tables (List String) where
  tasks := Table.empty
  workers := Table.empty.insertNew
    (WorkerService.newWorker ⟨"worker", "worker", "session", [], none, none⟩ 0) rfl
  artifacts := Table.empty
  keys := Table.empty

def busyBeat : Heartbeat (List String) where
  workerId := "worker"
  sessionId := "session"
  state := .busy
  currentTaskId := none
  claimToken := none
  progressStage := none
  progressMessage := none
  progressCurrent := none
  progressTotal := none
  details := none

/-- A uuid as a URN goes through the guard, and a heartbeat has none. -/
theorem malformed_ids_sent :
    ¬Guarded ((Call.getTask "urn:uuid:a0eebc99-9c0b-4ef8-bb6d-6bb9bd380a11").run 0 oneWorker ∅) ∧
      ¬Guarded ((Call.heartbeat busyBeat "not-a-uuid").run 0 oneWorker ∅) := by
  have hurn : pgUuid "urn:uuid:a0eebc99-9c0b-4ef8-bb6d-6bb9bd380a11" = none := by decide +kernel
  have hword : pgUuid "not-a-uuid" = none := by decide +kernel
  have hadmitted : Admitted oneWorker busyBeat := ⟨_, rfl, rfl, rfl, nofun⟩
  constructor
  · refine not_guarded_of_sent hurn ((getTask_unread ?_ hurn).post fun _ _ hfalse => hfalse.elim)
    decide +kernel
  · exact not_guarded_of_sent hword
      ((heartbeat_unread hadmitted hword).post fun _ _ hfalse => hfalse.elim)

end TaskQueue.MalformedIds

import TaskQueue.ClaimLifecycle
import TaskQueue.StepRuns
import TaskQueue.WorkerService
import Mathlib.Data.List.Sort

/-!
# Concurrent requests under READ COMMITTED

Any number of request handlers on the two queue tables. A handler that loads a row,
checks it and writes it back takes one step for the loads and one for the commit of
the `UPDATE`. `claim_next` runs its two statements row by row: a visited row is locked
with its new version, which other transactions see when the claim commits.

The ORM compares what a function has assigned with the row it loaded, and its `UPDATE`
carries the columns that differ and no others. So a handler keeps the rows it has loaded.
JSON documents that Python finds equal are one value of `Json`.

A slot keeps, beside the committed row, what has been committed on it; a handler that
loads a row notes how much of this history there was.
-/

namespace TaskQueue.ReadCommittedRequests
open KeyedTables TaskService WorkerService ClaimLifecycle

variable {Json : Type}

abbrev RowPhase := Phase (Option String) (Option String) (Option Time)
abbrev RowEvent := Event (Option String) (Option String) (Option Time) Time

/-- `lease_expires_at < now`; a null lease compares as unknown. -/
def Lapsed (lease : Option Time) (now : Time) : Prop := ∃ t, lease = some t ∧ t < now

/-- What a row says about its task. -/
def phase (task : Task Json) : RowPhase :=
  match task.status with
  | .queued => .queued
  | .claimed => .claimed task.claimedBy task.claimToken task.leaseExpiresAt
  | .done => .settled
  | .failed => .settled

section Flush

/-- A stored column after the `UPDATE` of a handler that has loaded and assigned it. -/
def flushed {α : Type} [DecidableEq α] (loaded assigned stored : α) : α :=
  if assigned = loaded then stored else assigned

variable {α : Type} [DecidableEq α]

/-- A column that is not assigned stays as it is. -/
@[simp] theorem flushed_same (loaded stored : α) : flushed loaded loaded stored = stored :=
  if_pos rfl

theorem flushed_of_ne {loaded assigned : α} (h : assigned ≠ loaded) (stored : α) :
    flushed loaded assigned stored = assigned := if_neg h

/-- Nothing has come between the load and the `UPDATE`. -/
@[simp] theorem flushed_loaded (loaded assigned : α) :
    flushed loaded assigned loaded = assigned := by
  unfold flushed
  split
  next h => exact h.symm
  next => rfl

variable [DecidableEq Json]

/-- The task row after the `UPDATE` by primary key. -/
def flushTask (loaded assigned stored : Task Json) : Task Json where
  id := stored.id
  taskType := flushed loaded.taskType assigned.taskType stored.taskType
  payload := flushed loaded.payload assigned.payload stored.payload
  leaseMinutes := flushed loaded.leaseMinutes assigned.leaseMinutes stored.leaseMinutes
  status := flushed loaded.status assigned.status stored.status
  result := flushed loaded.result assigned.result stored.result
  error := flushed loaded.error assigned.error stored.error
  claimedBy := flushed loaded.claimedBy assigned.claimedBy stored.claimedBy
  claimToken := flushed loaded.claimToken assigned.claimToken stored.claimToken
  createdAt := flushed loaded.createdAt assigned.createdAt stored.createdAt
  claimedAt := flushed loaded.claimedAt assigned.claimedAt stored.claimedAt
  leaseExpiresAt := flushed loaded.leaseExpiresAt assigned.leaseExpiresAt stored.leaseExpiresAt
  completedAt := flushed loaded.completedAt assigned.completedAt stored.completedAt
  progressStage := flushed loaded.progressStage assigned.progressStage stored.progressStage
  progressMessage :=
    flushed loaded.progressMessage assigned.progressMessage stored.progressMessage
  progressCurrent :=
    flushed loaded.progressCurrent assigned.progressCurrent stored.progressCurrent
  progressTotal := flushed loaded.progressTotal assigned.progressTotal stored.progressTotal
  progressUpdatedAt :=
    flushed loaded.progressUpdatedAt assigned.progressUpdatedAt stored.progressUpdatedAt
  expiresAt := flushed loaded.expiresAt assigned.expiresAt stored.expiresAt

/-- The worker row after the `UPDATE` by primary key. -/
def flushWorker (loaded assigned stored : Worker Json) : Worker Json where
  id := stored.id
  name := flushed loaded.name assigned.name stored.name
  sessionId := flushed loaded.sessionId assigned.sessionId stored.sessionId
  capabilities := flushed loaded.capabilities assigned.capabilities stored.capabilities
  details := flushed loaded.details assigned.details stored.details
  version := flushed loaded.version assigned.version stored.version
  state := flushed loaded.state assigned.state stored.state
  currentTaskId := flushed loaded.currentTaskId assigned.currentTaskId stored.currentTaskId
  registeredAt := flushed loaded.registeredAt assigned.registeredAt stored.registeredAt
  sessionStartedAt :=
    flushed loaded.sessionStartedAt assigned.sessionStartedAt stored.sessionStartedAt
  lastHeartbeatAt :=
    flushed loaded.lastHeartbeatAt assigned.lastHeartbeatAt stored.lastHeartbeatAt
  ownerUserId := flushed loaded.ownerUserId assigned.ownerUserId stored.ownerUserId

@[simp] theorem flushTask_id (loaded assigned stored : Task Json) :
    (flushTask loaded assigned stored).id = stored.id := rfl

@[simp] theorem flushWorker_id (loaded assigned stored : Worker Json) :
    (flushWorker loaded assigned stored).id = stored.id := rfl

/-- On the row that was loaded the `UPDATE` leaves what was assigned. -/
theorem flushTask_loaded {loaded assigned : Task Json} (hid : assigned.id = loaded.id) :
    flushTask loaded assigned loaded = assigned := by
  cases assigned
  cases hid
  simp only [flushTask, flushed_loaded]

theorem flushWorker_loaded {loaded assigned : Worker Json} (hid : assigned.id = loaded.id) :
    flushWorker loaded assigned loaded = assigned := by
  cases assigned
  cases hid
  simp only [flushWorker, flushed_loaded]

end Flush

/-- A new version of a row in a transaction that has not committed. -/
structure Lock (Json : Type) where
  holder : ℕ
  row : Task Json
  events : List RowEvent

structure Slot (Json : Type) where
  id : TaskId
  row : Task Json
  history : List RowEvent
  lock : Option (Lock Json)

namespace Slot

/-- The committed events and those of the open transaction. -/
def events (slot : Slot Json) : List RowEvent :=
  slot.history ++ (slot.lock.map Lock.events).getD []

/-- The version that a statement of this handler meets. -/
def visible (handler : ℕ) (slot : Slot Json) : Task Json :=
  match slot.lock with
  | none => slot.row
  | some lock => if lock.holder = handler then lock.row else slot.row

/-- No other transaction holds the row. -/
def free (handler : ℕ) (slot : Slot Json) : Bool :=
  match slot.lock with
  | none => true
  | some lock => lock.holder = handler

/-- A committed `UPDATE`. -/
def commitUpdate (f : Task Json → Task Json) (e : RowEvent) (slot : Slot Json) : Slot Json :=
  { slot with row := f slot.row, history := slot.history ++ [e] }

/-- An `UPDATE` in a transaction that stays open. -/
def write (handler : ℕ) (f : Task Json → Task Json) (e : RowEvent) (slot : Slot Json) :
    Slot Json :=
  match slot.lock with
  | none => { slot with lock := some ⟨handler, f slot.row, [e]⟩ }
  | some lock => { slot with lock := some ⟨handler, f lock.row, lock.events ++ [e]⟩ }

/-- The commit of a handler's open transaction. -/
def publish (handler : ℕ) (slot : Slot Json) : Slot Json :=
  match slot.lock with
  | none => slot
  | some lock => if lock.holder = handler then
      { slot with row := lock.row, history := slot.history ++ lock.events, lock := none }
    else slot

/-- The end of a handler's open transaction without a commit. -/
def release (handler : ℕ) (slot : Slot Json) : Slot Json :=
  if slot.free handler then { slot with lock := none } else slot

@[simp] theorem commitUpdate_id (f : Task Json → Task Json) (e : RowEvent) (slot : Slot Json) :
    (slot.commitUpdate f e).id = slot.id := rfl

theorem write_id (handler : ℕ) (f : Task Json → Task Json) (e : RowEvent) (slot : Slot Json) :
    (slot.write handler f e).id = slot.id := by
  simp only [write]
  split <;> rfl

theorem publish_id (handler : ℕ) (slot : Slot Json) : (slot.publish handler).id = slot.id := by
  simp only [publish]
  split
  · rfl
  · split <;> rfl

theorem release_id (handler : ℕ) (slot : Slot Json) : (slot.release handler).id = slot.id := by
  simp only [release]
  split <;> rfl

end Slot

/-- A worker row with the session ids that have been written on it, in order. -/
structure WorkerSlot (Json : Type) where
  id : String
  row : Worker Json
  sessions : List String

namespace WorkerSlot
variable [DecidableEq Json]

/-- The commit of a registration that has loaded a row. The session id of the loaded row is
not written again. -/
def commitRegister [EmptyCollection Json] (req : Registration Json) (now : Time)
    (loaded : Worker Json) (slot : WorkerSlot Json) : WorkerSlot Json :=
  { slot with
    row := flushWorker loaded (registerRow req now loaded) slot.row
    sessions := if req.sessionId = loaded.sessionId then slot.sessions
      else slot.sessions ++ [req.sessionId] }

def commitBeat (req : Heartbeat Json) (now : Time) (loaded : Worker Json)
    (slot : WorkerSlot Json) : WorkerSlot Json :=
  { slot with row := flushWorker loaded (beatWorker req now loaded) slot.row }

@[simp] theorem commitRegister_id [EmptyCollection Json] (req : Registration Json) (now : Time)
    (loaded : Worker Json) (slot : WorkerSlot Json) :
    (slot.commitRegister req now loaded).id = slot.id := rfl

@[simp] theorem commitBeat_id (req : Heartbeat Json) (now : Time) (loaded : Worker Json)
    (slot : WorkerSlot Json) : (slot.commitBeat req now loaded).id = slot.id := rfl

end WorkerSlot

/-- The arguments of `claim_next`, with its clock reading. -/
structure ClaimRequest where
  taskTypes : List String
  workerId : String
  leaseMinutes : Option Int
  now : Time

/-- The claim that a transaction makes: its own worker and token, and the end of the lease. -/
def ClaimRequest.event (req : ClaimRequest) (claimToken : String) (task : Task Json) : RowEvent :=
  .claimed (some req.workerId) (some claimToken)
    (some (req.now + minutes (req.leaseMinutes.getD task.leaseMinutes)))

/-- Where a handler stands in its request, with the rows it has loaded. -/
inductive Handler (Json : Type)
  | idle
  | settling (taskId : TaskId) (claimToken : String) (outcome : Outcome Json)
      (task : Task Json) (seen : ℕ)
  | registering (req : Registration Json) (now : Time) (worker : Option (Worker Json))
  | beating (req : Heartbeat Json) (now : Time) (worker : Worker Json)
      (task : Option (Task Json)) (seenSessions seen : ℕ)
  | sweeping (req : ClaimRequest) (todo : List TaskId)
  | selecting (req : ClaimRequest) (claimToken : String) (todo : List TaskId)
  | claimed

structure System (Json : Type) where
  tasks : Table TaskId (Slot Json) Slot.id
  workers : Table String (WorkerSlot Json) WorkerSlot.id
  handlers : ℕ → Handler Json
  tokens : List String

inductive Label (Json : Type)
  | submitTask (id : TaskId) (taskType : String) (payload : Json)
      (leaseMinutes retentionHours : Option Int) (now createdAt : Time)
  | loadOutcome (handler : ℕ) (taskId : TaskId) (claimToken : String) (outcome : Outcome Json)
  | commitOutcome (handler : ℕ) (now : Time)
  | loadRegister (handler : ℕ) (req : Registration Json) (now : Time)
  | commitRegister (handler : ℕ)
  | loadHeartbeat (handler : ℕ) (req : Heartbeat Json) (now : Time)
  | commitHeartbeat (handler : ℕ)
  | beginSweep (handler : ℕ) (req : ClaimRequest) (rank : TaskId → ℕ)
  | sweepRow (handler : ℕ)
  | beginSelect (handler : ℕ) (claimToken : String) (rank : TaskId → ℕ)
  | selectRow (handler : ℕ)
  | commitClaim (handler : ℕ)
  | abort (handler : ℕ)

namespace System

def setHandler (s : System Json) (handler : ℕ) (h : Handler Json) : System Json :=
  { s with handlers := Function.update s.handlers handler h }

/-- The versions that a statement of this handler meets, as the scan finds them. -/
def snapshot (s : System Json) (handler : ℕ) (rank : TaskId → ℕ) : List (Task Json) :=
  (s.tasks.rows.insertionSort fun a b => rank a.id ≤ rank b.id).map (Slot.visible handler)

/-- How much has been committed on the row of a task. -/
def seenHistory (s : System Json) (taskId : Option TaskId) : ℕ :=
  ((taskId.bind s.tasks.get).map fun slot => slot.history.length).getD 0

/-- How many session ids have been written on the row of a worker. -/
def seenSessions (s : System Json) (workerId : String) : ℕ :=
  ((s.workers.get workerId).map fun slot => slot.sessions.length).getD 0

end System

/-- The rows `_RECLAIM_SQL` visits. -/
def lapsedIds (req : ClaimRequest) (rows : List (Task Json)) : List TaskId :=
  (rows.filter (leaseLapsed req.taskTypes req.now)).map Task.id

/-- The rows the candidate query visits: `ORDER BY created_at`. -/
def claimableIds (req : ClaimRequest) (rows : List (Task Json)) : List TaskId :=
  ((rows.filter (claimable req.taskTypes)).insertionSort
    fun a b => a.createdAt ≤ b.createdAt).map Task.id

section Steps
variable (s : System Json) (handler : ℕ)

/-- `submit_task`: the new row appears with its commit. A refused request changes
nothing. -/
def submitStep (cfg : Settings) (id : TaskId) (taskType : String) (payload : Json)
    (leaseMinutes retentionHours : Option Int) (now createdAt : Time) : System Json :=
  match queuedRow cfg now createdAt id taskType payload leaseMinutes retentionHours with
  | .error _ => s
  | .ok task =>
    if h : s.tasks.get task.id = none then
      { s with tasks := s.tasks.insertNew ⟨task.id, task, [.submitted], none⟩ h }
    else s

/-- `get_task` in `complete_task` or `fail_task`, with the two checks. -/
def loadOutcome (taskId : TaskId) (claimToken : String) (outcome : Outcome Json) :
    Option (System Json) :=
  match s.handlers handler, s.tasks.get taskId with
  | .idle, some slot =>
    match checkClaim taskId claimToken slot.row with
    | .ok _ => some (s.setHandler handler
        (.settling taskId claimToken outcome slot.row slot.history.length))
    | .error _ => some s
  | .idle, none => some s
  | _, _ => none

/-- The commit of `complete_task` or `fail_task`. The status differs from the loaded one, so
that there is an `UPDATE`, which waits for a lock on the row. -/
def commitOutcome [DecidableEq Json] (now : Time) : Option (System Json) :=
  match s.handlers handler with
  | .settling taskId claimToken outcome task _ =>
    match s.tasks.get taskId with
    | none => none
    | some slot => if slot.lock.isSome then none else
      some { s.setHandler handler .idle with
        tasks := s.tasks.modify taskId
          (Slot.commitUpdate (flushTask task (settleRow outcome now task))
            (.settled (some claimToken)))
          (Slot.commitUpdate_id _ _) }
  | _ => none

/-- The load of `register_worker` with its check. -/
def loadRegister [EmptyCollection Json] (req : Registration Json) (now : Time) :
    Option (System Json) :=
  match s.handlers handler with
  | .idle =>
    match checkOwner req ((s.workers.get req.workerId).map WorkerSlot.row) with
    | .ok _ => some (s.setHandler handler
        (.registering req now ((s.workers.get req.workerId).map WorkerSlot.row)))
    | .error _ => some s
  | _ => none

/-- The commit of `register_worker`: an `UPDATE` if the load found the row, else an
`INSERT`, which fails if the row has appeared meanwhile. -/
def commitRegister [DecidableEq Json] [EmptyCollection Json] : Option (System Json) :=
  match s.handlers handler with
  | .registering req now (some worker) =>
    some { s.setHandler handler .idle with
      workers := s.workers.modify req.workerId (WorkerSlot.commitRegister req now worker)
        (WorkerSlot.commitRegister_id req now worker) }
  | .registering req now none =>
    if h : s.workers.get req.workerId = none then
      some { s.setHandler handler .idle with
        workers := s.workers.insertNew
          ⟨req.workerId, newWorker req now, [req.sessionId]⟩ h }
    else some (s.setHandler handler .idle)
  | _ => none

/-- Both loads of `heartbeat` with its checks. -/
def loadHeartbeat (req : Heartbeat Json) (now : Time) : Option (System Json) :=
  match s.handlers handler with
  | .idle =>
    match s.workers.get req.workerId with
    | none => some s
    | some worker =>
      match checkLoads req (some worker.row) fun taskId => (s.tasks.get taskId).map Slot.row with
      | .ok _ => some (s.setHandler handler (.beating req now worker.row
          (req.currentTaskId.bind fun taskId => (s.tasks.get taskId).map Slot.row)
          (s.seenSessions req.workerId) (s.seenHistory req.currentTaskId)))
      | .error _ => some s
  | _ => none

/-- The commit of `heartbeat`: the `UPDATE` of the worker row and that of the task row,
if one is named. -/
def commitHeartbeat [DecidableEq Json] : Option (System Json) :=
  match s.handlers handler with
  | .beating req now worker task _ _ =>
    let t : System Json := { s.setHandler handler .idle with
      workers := s.workers.modify req.workerId (WorkerSlot.commitBeat req now worker)
        (WorkerSlot.commitBeat_id req now worker) }
    match req.currentTaskId, task with
    | some taskId, some task =>
      match s.tasks.get taskId with
      | none => none
      | some slot =>
        if slot.lock.isSome then
          -- Only a heartbeat that changes nothing sends no `UPDATE` and need not wait.
          if beatTask req now task = task then some t else none
        else some { t with
          tasks := s.tasks.modify taskId
            (Slot.commitUpdate (flushTask task (beatTask req now task))
              (.renewed (flushed task.leaseExpiresAt
                (some (now + minutes activeLeaseMinutes)) slot.row.leaseExpiresAt)))
            (Slot.commitUpdate_id _ _) }
    | _, _ => some t
  | _ => none

/-- The start of `claim_next`: the argument check and the snapshot of `_RECLAIM_SQL`. -/
def beginSweep (req : ClaimRequest) (rank : TaskId → ℕ) : Option (System Json) :=
  match s.handlers handler with
  | .idle =>
    if req.leaseMinutes.any (· ≤ 0) then some s
    else some (s.setHandler handler
      (.sweeping req (lapsedIds req (s.snapshot handler rank))))
  | _ => none

/-- `_RECLAIM_SQL` visits its next row. It waits for a lock on it, then checks the `WHERE`
clause again on the version it meets. -/
def sweepRow : Option (System Json) :=
  match s.handlers handler with
  | .sweeping req (taskId :: todo) =>
    match s.tasks.get taskId with
    | none => some (s.setHandler handler (.sweeping req todo))
    | some slot =>
      if slot.free handler then
        if leaseLapsed req.taskTypes req.now (slot.visible handler) then
          some { s.setHandler handler (.sweeping req todo) with
            tasks := s.tasks.modify taskId
              (Slot.write handler requeueRow
                (.reclaimed (slot.visible handler).leaseExpiresAt req.now))
              (Slot.write_id handler _ _) }
        else some (s.setHandler handler (.sweeping req todo))
      else none
  | _ => none

/-- The sweep is over; a fresh uuid is drawn and `_CLAIM_SQL` takes its snapshot. -/
def beginSelect (claimToken : String) (rank : TaskId → ℕ) : Option (System Json) :=
  match s.handlers handler with
  | .sweeping req [] =>
    if claimToken ∈ s.tokens then none
    else some { s.setHandler handler
        (.selecting req claimToken (claimableIds req (s.snapshot handler rank))) with
      tokens := claimToken :: s.tokens }
  | _ => none

/-- `_CLAIM_SQL` visits its next row: `SKIP LOCKED`, the `WHERE` clause once more, and
the claim of the first row that passes. -/
def selectRow : Option (System Json) :=
  match s.handlers handler with
  | .selecting _ _ [] => some (s.setHandler handler .claimed)
  | .selecting req claimToken (taskId :: todo) =>
    match s.tasks.get taskId with
    | none => some (s.setHandler handler (.selecting req claimToken todo))
    | some slot =>
      if slot.free handler && claimable req.taskTypes (slot.visible handler) then
        some { s.setHandler handler .claimed with
          tasks := s.tasks.modify taskId
            (Slot.write handler (claimRow req.workerId claimToken req.now req.leaseMinutes)
              (req.event claimToken (slot.visible handler)))
            (Slot.write_id handler _ _) }
      else some (s.setHandler handler (.selecting req claimToken todo))
  | _ => none

/-- The commit of `claim_next`. -/
def commitClaim : Option (System Json) :=
  match s.handlers handler with
  | .claimed => some { s.setHandler handler .idle with
      tasks := s.tasks.mapRows (Slot.publish handler) (Slot.publish_id handler) }
  | _ => none

/-- The request dies or its transaction is rolled back. -/
def abort : System Json :=
  { s.setHandler handler .idle with
    tasks := s.tasks.mapRows (Slot.release handler) (Slot.release_id handler) }

end Steps

def step [DecidableEq Json] [EmptyCollection Json] (cfg : Settings) (s : System Json) :
    Label Json → Option (System Json)
  | .submitTask id taskType payload leaseMinutes retentionHours now createdAt =>
    some (submitStep s cfg id taskType payload leaseMinutes retentionHours now createdAt)
  | .loadOutcome handler taskId claimToken outcome =>
    loadOutcome s handler taskId claimToken outcome
  | .commitOutcome handler now => commitOutcome s handler now
  | .loadRegister handler req now => loadRegister s handler req now
  | .commitRegister handler => commitRegister s handler
  | .loadHeartbeat handler req now => loadHeartbeat s handler req now
  | .commitHeartbeat handler => commitHeartbeat s handler
  | .beginSweep handler req rank => beginSweep s handler req rank
  | .sweepRow handler => sweepRow s handler
  | .beginSelect handler claimToken rank => beginSelect s handler claimToken rank
  | .selectRow handler => selectRow s handler
  | .commitClaim handler => commitClaim s handler
  | .abort handler => some (abort s handler)

/-- Empty tables and no request in progress. -/
def start : System Json := ⟨Table.empty, Table.empty, fun _ => .idle, []⟩

end TaskQueue.ReadCommittedRequests

import TaskQueue.SerialRequests
import Mathlib.Tactic.Linarith

/-!
# The columns of a task row agree with its status

Five writers change task rows: the submission, the sweep of lapsed leases, the claim,
the two outcomes and the heartbeat. Each keeps the agreement between the status and
the other columns, so every table that requests served one at a time can produce has it.
-/

namespace TaskQueue.TaskRowInvariant
open KeyedTables TaskService WorkerService SerialRequests StepRuns

variable {Json : Type}

/-- No column says anything about an outcome. -/
structure Unsettled (task : Task Json) : Prop where
  result : task.result = none
  error : task.error = none
  completedAt : task.completedAt = none

/-- No column says anything about a claim or its progress. -/
structure Unclaimed (task : Task Json) : Prop where
  claimedBy : task.claimedBy = none
  claimToken : task.claimToken = none
  claimedAt : task.claimedAt = none
  leaseExpiresAt : task.leaseExpiresAt = none
  progressStage : task.progressStage = none
  progressMessage : task.progressMessage = none
  progressCurrent : task.progressCurrent = none
  progressTotal : task.progressTotal = none
  progressUpdatedAt : task.progressUpdatedAt = none

/-- The claim columns are set and the lease outlives the claim. -/
structure Leased (task : Task Json) : Prop where
  claimedBy : task.claimedBy ≠ none
  claimToken : task.claimToken ≠ none
  lease : ∃ claimedAt lease, task.claimedAt = some claimedAt ∧
    task.leaseExpiresAt = some lease ∧ claimedAt < lease

/-- The status and the other columns of a row agree. -/
structure Consistent (task : Task Json) : Prop where
  queued : task.status = .queued → Unclaimed task ∧ Unsettled task
  claimed : task.status = .claimed → Leased task ∧ Unsettled task
  done : task.status = .done →
    task.result ≠ none ∧ task.completedAt ≠ none ∧ task.error = none
  failed : task.status = .failed →
    task.error ≠ none ∧ task.completedAt ≠ none ∧ task.result = none
  progress : ProgressInRange task.progressCurrent task.progressTotal

/-- The inductive form: the lease a row asks for is positive, and no claim was made in
the future. -/
structure RowInvariant (clock : Time) (task : Task Json) : Prop where
  consistent : Consistent task
  leaseMinutes : 0 < task.leaseMinutes
  claimedAt : ∀ claimedAt, task.claimedAt = some claimedAt → claimedAt ≤ clock

theorem RowInvariant.mono {clock later : Time} {task : Task Json}
    (h : RowInvariant clock task) (hl : clock ≤ later) : RowInvariant later task :=
  ⟨h.consistent, h.leaseMinutes, fun a ha => (h.claimedAt a ha).trans hl⟩

theorem minutes_pos {n : Int} (h : 0 < n) : 0 < minutes n := by
  unfold minutes
  linarith

theorem requeueRow_invariant {clock : Time} {task : Task Json} (h : RowInvariant clock task)
    (hs : task.status = .claimed) : RowInvariant clock (requeueRow task) where
  consistent := {
    queued := fun _ => ⟨⟨rfl, rfl, rfl, rfl, rfl, rfl, rfl, rfl, rfl⟩,
      ⟨(h.consistent.claimed hs).2.result, (h.consistent.claimed hs).2.error,
        (h.consistent.claimed hs).2.completedAt⟩⟩
    claimed := nofun
    done := nofun
    failed := nofun
    progress := nofun }
  leaseMinutes := h.leaseMinutes
  claimedAt := nofun

theorem claimRow_invariant {now : Time} {task : Task Json} (h : RowInvariant now task)
    (hs : task.status = .queued) (workerId claimToken : String) {leaseMinutes : Option Int}
    (hl : ∀ n, leaseMinutes = some n → 0 < n) :
    RowInvariant now (claimRow workerId claimToken now leaseMinutes task) := by
  have hpos : 0 < minutes (leaseMinutes.getD task.leaseMinutes) := by
    apply minutes_pos
    cases leaseMinutes with
    | none => exact h.leaseMinutes
    | some n => exact hl n rfl
  have hu := (h.consistent.queued hs).2
  exact {
    consistent := {
      queued := nofun
      claimed := fun _ => ⟨⟨nofun, nofun, now, _, rfl, rfl, by linarith⟩,
        ⟨hu.result, hu.error, hu.completedAt⟩⟩
      done := nofun
      failed := nofun
      progress := nofun }
    leaseMinutes := h.leaseMinutes
    claimedAt := fun a ha => (Option.some.inj ha).symm.le }

theorem settleRow_invariant {now : Time} {task : Task Json} (h : RowInvariant now task)
    (hs : task.status = .claimed) (outcome : Outcome Json) :
    RowInvariant now (settleRow outcome now task) := by
  have hu := (h.consistent.claimed hs).2
  cases outcome with
  | complete result =>
    exact ⟨⟨nofun, nofun, fun _ => ⟨nofun, nofun, hu.error⟩, nofun, h.consistent.progress⟩,
      h.leaseMinutes, h.claimedAt⟩
  | fail error =>
    exact ⟨⟨nofun, nofun, nofun, fun _ => ⟨nofun, nofun, hu.result⟩, h.consistent.progress⟩,
      h.leaseMinutes, h.claimedAt⟩

theorem beatTask_invariant {now : Time} {task : Task Json} (h : RowInvariant now task)
    (hs : task.status = .claimed) {req : Heartbeat Json}
    (hp : ProgressInRange req.progressCurrent req.progressTotal) :
    RowInvariant now (beatTask req now task) := by
  obtain ⟨⟨hb, hk, claimedAt, lease, hc, -, -⟩, hu⟩ := h.consistent.claimed hs
  have hle := h.claimedAt claimedAt hc
  have hlt : claimedAt < now + minutes activeLeaseMinutes := by
    have hpos : 0 < minutes activeLeaseMinutes := minutes_pos (by decide)
    linarith
  exact {
    consistent := {
      queued := fun hq => absurd (hq.symm.trans hs) nofun
      claimed := fun _ => ⟨⟨hb, hk, claimedAt, _, hc, rfl, hlt⟩,
        ⟨hu.result, hu.error, hu.completedAt⟩⟩
      done := fun hd => absurd (hd.symm.trans hs) nofun
      failed := fun hf => absurd (hf.symm.trans hs) nofun
      progress := hp }
    leaseMinutes := h.leaseMinutes
    claimedAt := h.claimedAt }

/-- Every row of the table has the invariant. -/
def TableInvariant (clock : Time) (tasks : TaskTable Json) : Prop :=
  ∀ task ∈ tasks.rows, RowInvariant clock task

theorem TableInvariant.mono {clock later : Time} {tasks : TaskTable Json}
    (h : TableInvariant clock tasks) (hl : clock ≤ later) : TableInvariant later tasks :=
  fun task ht => (h task ht).mono hl

theorem TableInvariant.modify {clock : Time} {tasks : TaskTable Json} {taskId : TaskId}
    {f : Task Json → Task Json} (hf : ∀ task, (f task).id = task.id)
    (h : TableInvariant clock tasks)
    (hrow : ∀ task, tasks.get taskId = some task → RowInvariant clock (f task)) :
    TableInvariant clock (tasks.modify taskId f hf) :=
  Table.forall_modify h hrow

theorem queuedRow_invariant {cfg : Settings} {now createdAt clock : Time} {id : TaskId}
    {taskType : String} {payload : Json} {leaseMinutes retentionHours : Option Int}
    {task : Task Json}
    (h : queuedRow cfg now createdAt id taskType payload leaseMinutes retentionHours = .ok task) :
    RowInvariant clock task := by
  dsimp only [queuedRow] at h
  split_ifs at h with hl hr
  cases h
  exact ⟨⟨fun _ => ⟨⟨rfl, rfl, rfl, rfl, rfl, rfl, rfl, rfl, rfl⟩, ⟨rfl, rfl, rfl⟩⟩,
    nofun, nofun, nofun, nofun⟩, not_le.1 hl, nofun⟩

theorem submitTask_invariant {cfg : Settings} {now later : Time} {id : TaskId}
    {tasks : TaskTable Json} {taskType : String} {payload : Json}
    {leaseMinutes retentionHours : Option Int} {r : TaskTable Json × Task Json}
    (h : TableInvariant now tasks)
    (hr : submitTask cfg now later id tasks taskType payload leaseMinutes retentionHours = .ok r) :
    TableInvariant now r.1 := by
  obtain ⟨added, hrow, -, rfl⟩ := submitTask_ok_iff.1 hr
  intro task ht
  rcases List.mem_append.1 ht with ht | ht
  · exact h task ht
  · rw [List.mem_singleton] at ht
    subst ht
    exact queuedRow_invariant hrow

theorem reclaim_invariant {taskTypes : List String} {now : Time} {tasks : TaskTable Json}
    (h : TableInvariant now tasks) : TableInvariant now (reclaim taskTypes now tasks) := by
  apply Table.forall_mapRows
  intro task ht
  split_ifs with hl
  · exact requeueRow_invariant (h task ht) (leaseLapsed_iff.1 hl).1
  · exact h task ht

theorem claimNext_invariant {now : Time} {claimToken : String} {tasks : TaskTable Json}
    {taskTypes : List String} {workerId : String} {leaseMinutes : Option Int}
    {r : TaskTable Json × Option (Task Json)} (h : TableInvariant now tasks)
    (hr : claimNext now claimToken tasks taskTypes workerId leaseMinutes = .ok r) :
    TableInvariant now r.1 := by
  have hsweep := @reclaim_invariant _ taskTypes _ _ h
  obtain ⟨hl, rfl | ⟨task, hg, hs, rfl⟩⟩ := claimNext_ok_cases hr
  · exact hsweep
  · apply hsweep.modify (claimRow_id workerId claimToken now leaseMinutes)
    intro x hx
    obtain rfl : task = x := Option.some.inj (hg.symm.trans hx)
    exact claimRow_invariant (hsweep _ (Table.mem_of_get hg)) hs workerId claimToken hl

theorem settleTask_invariant {now : Time} {tasks : TaskTable Json} {taskId : TaskId}
    {claimToken : String} {outcome : Outcome Json} {r : TaskTable Json × Task Json}
    (h : TableInvariant now tasks)
    (hr : settleTask now tasks taskId claimToken outcome = .ok r) : TableInvariant now r.1 := by
  obtain ⟨task, hg, hs, -, rfl⟩ := settleTask_ok_iff.1 hr
  apply h.modify (settleRow_id outcome now)
  intro x hx
  obtain rfl : task = x := Option.some.inj (hg.symm.trans hx)
  exact settleRow_invariant (h _ (Table.mem_of_get hg)) hs outcome

theorem heartbeat_invariant {now : Time} {tasks : TaskTable Json} {workers : WorkerTable Json}
    {req : Heartbeat Json} {r : TaskTable Json × WorkerTable Json}
    (h : TableInvariant now tasks) (hr : heartbeat now tasks workers req = .ok r) :
    TableInvariant now r.1 := by
  obtain ⟨hc, rfl⟩ := heartbeat_ok_iff.1 hr
  obtain ⟨hw, ht⟩ := checkHeartbeat_ok_iff.1 hc
  obtain ⟨-, -, -, -, hp⟩ := checkWorker_ok_iff.1 hw
  unfold beatTasks
  cases hid : req.currentTaskId with
  | none => exact h
  | some taskId =>
    obtain ⟨task, hg, hs, -, -⟩ := checkTask_ok_iff.1 (ht taskId hid)
    apply h.modify (beatTask_id req now)
    intro x hx
    obtain rfl : task = x := Option.some.inj (hg.symm.trans hx)
    exact beatTask_invariant (h _ (Table.mem_of_get hg)) hs hp

variable [EmptyCollection Json]

/-- One request keeps the invariant of every task row. -/
theorem handle_invariant (cfg : Settings) {db : Db Json} {r : Timed Json}
    (h : TableInvariant r.now db.tasks) : TableInvariant r.now (handle cfg db r).1.tasks := by
  unfold handle
  cases r.request with
  | submitTask id taskType payload leaseMinutes retentionHours =>
    dsimp only
    split
    · exact submitTask_invariant h ‹_›
    · exact h
  | claimNext claimToken taskTypes workerId leaseMinutes =>
    dsimp only
    split
    · exact claimNext_invariant h ‹_›
    · exact h
  | completeTask taskId claimToken result =>
    dsimp only
    split
    · exact settleTask_invariant h ‹_›
    · exact h
  | failTask taskId claimToken error =>
    dsimp only
    split
    · exact settleTask_invariant h ‹_›
    · exact h
  | registerWorker req =>
    dsimp only
    split <;> exact h
  | heartbeat req =>
    dsimp only
    split
    · exact heartbeat_invariant h ‹_›
    · exact h
  | cleanupTasks => exact fun task ht => h task (List.mem_filter.1 ht).1
  | cleanupWorkers => exact h
  | rescan rank => exact fun task ht => h task ((List.mem_insertionSort _).1 ht)

theorem step_invariant (cfg : Settings) (s : Served Json) (r : Timed Json) (t : Served Json)
    (h : TableInvariant s.clock s.db.tasks) (hstep : step cfg s r = some t) :
    TableInvariant t.clock t.db.tasks := by
  obtain ⟨hc, hl, rfl⟩ := step_inv cfg hstep
  exact (handle_invariant cfg (h.mono hc)).mono hl

/-- Every task row of every reachable database is consistent. -/
theorem reachable_consistent (cfg : Settings) (clock : Time) (requests : List (Timed Json))
    (s : Served Json) (hrun : exec (step cfg) (start clock) requests = some s) :
    ∀ task ∈ s.db.tasks.rows, Consistent task := by
  have h := invariant (I := fun s : Served Json => TableInvariant s.clock s.db.tasks)
    (step_invariant cfg) (by rintro task ⟨⟩) hrun
  exact fun task ht => (h task ht).consistent

/-- A submission, a claim with its own lease and a failure. -/
def failedTaskRequests : List (Timed (List ℕ)) :=
  [⟨0, 1, .submitTask "a" "image_generation" [] none none⟩,
    ⟨2, 2, .claimNext "token" ["image_generation"] "worker-1" (some 15)⟩,
    ⟨3, 3, .failTask "a" "token" "corrupt_output: blank"⟩]

theorem reachable_consistent_failedTask :
    ∃ s, exec (step {}) (start 0) failedTaskRequests = some s ∧
      s.db.tasks.rows.map Task.status = [.failed] ∧ ∀ task ∈ s.db.tasks.rows, Consistent task :=
  ⟨_, rfl, rfl, reachable_consistent {} 0 failedTaskRequests _ rfl⟩

end TaskQueue.TaskRowInvariant

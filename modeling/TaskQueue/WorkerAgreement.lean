import TaskQueue.SerialRequests

/-!
# Busy workers and their tasks

`register_worker` and `heartbeat` write the state of a worker and its task reference
together, and keep `busy` for the rows that name a task. The cleanup of the task table
writes the reference alone, through the foreign key.
-/

namespace TaskQueue.WorkerAgreement
open KeyedTables WorkerService SerialRequests StepRuns

variable {Json : Type}

/-- The row is busy exactly if it names a task. -/
def Agrees (worker : Worker Json) : Prop := worker.state = .busy ↔ worker.currentTaskId ≠ none

def AllAgree (workers : WorkerTable Json) : Prop := ∀ worker ∈ workers.rows, Agrees worker

def Agreement (s : Served Json) : Prop := AllAgree s.db.workers

/-- The row names a task that the cleanup at `now` deletes. -/
def Stranded (now : Time) (tasks : TaskTable Json) (worker : Worker Json) : Prop :=
  ∃ taskId task, worker.currentTaskId = some taskId ∧ tasks.get taskId = some task ∧
    task.expiresAt < now

/-- A cleanup of the task table meets no task that a worker row names. -/
def Spares (s : Served Json) (r : Timed Json) : Prop :=
  match r.request with
  | .cleanupTasks => ∀ worker ∈ s.db.workers.rows, ¬Stranded r.now s.db.tasks worker
  | _ => True

/-- What the foreign key leaves of a task reference. -/
theorem kept_reference_eq_none_iff {now : Time} {tasks : TaskTable Json} {worker : Worker Json} :
    (worker.currentTaskId.filter fun taskId =>
        !(tasks.get taskId).any fun task => decide (task.expiresAt < now)) = none ↔
      worker.currentTaskId = none ∨ Stranded now tasks worker := by
  unfold Stranded
  cases worker.currentTaskId with
  | none => simp
  | some taskId =>
    cases hget : tasks.get taskId with
    | none => simp [Option.filter, hget]
    | some task => simp [Option.filter, hget]

/-- The cleanup leaves agreement behind exactly if it strands no worker. -/
theorem cleanupTasks_allAgree_iff {now : Time} {db : Db Json} (h : AllAgree db.workers) :
    AllAgree (cleanupTasks now db).workers ↔
      ∀ worker ∈ db.workers.rows, ¬Stranded now db.tasks worker := by
  have hrow : ∀ worker ∈ db.workers.rows,
      Agrees { worker with
        currentTaskId := worker.currentTaskId.filter fun taskId =>
          !(db.tasks.get taskId).any fun task => decide (task.expiresAt < now) } ↔
        ¬Stranded now db.tasks worker := by
    intro worker hworker
    have hbefore : worker.state = .busy ↔ worker.currentTaskId ≠ none := h worker hworker
    have hnamed : Stranded now db.tasks worker → worker.currentTaskId ≠ none := by
      rintro ⟨taskId, -, hid, -⟩
      simp [hid]
    rw [Agrees, ne_eq, kept_reference_eq_none_iff, hbefore]
    tauto
  constructor
  · intro hafter worker hworker
    exact (hrow worker hworker).1 (hafter _ (List.mem_map_of_mem hworker))
  · intro hspared worker hworker
    obtain ⟨before, hbefore, rfl⟩ := List.mem_map.1 hworker
    exact (hrow before hbefore).2 (hspared before hbefore)

theorem AllAgree.modify {workers : WorkerTable Json} {workerId : String}
    {f : Worker Json → Worker Json} (hf : ∀ worker, (f worker).id = worker.id)
    (h : AllAgree workers) (hrow : ∀ worker, Agrees (f worker)) :
    AllAgree (workers.modify workerId f hf) :=
  Table.forall_modify h fun worker _ => hrow worker

theorem heartbeat_allAgree {now : Time} {tasks : TaskTable Json} {workers : WorkerTable Json}
    {req : Heartbeat Json} {r : TaskTable Json × WorkerTable Json} (h : AllAgree workers)
    (hr : heartbeat now tasks workers req = .ok r) : AllAgree r.2 := by
  obtain ⟨hcheck, rfl⟩ := heartbeat_ok_iff.1 hr
  obtain ⟨worker, -, -, hstate, -⟩ := checkWorker_ok_iff.1 (checkHeartbeat_ok_iff.1 hcheck).1
  exact h.modify (beatWorker_id req now) fun _ => hstate

section Requests
variable [EmptyCollection Json]

theorem registerWorker_allAgree {now : Time} {workers : WorkerTable Json}
    {req : Registration Json} {r : WorkerTable Json × Worker Json} (h : AllAgree workers)
    (hr : registerWorker now workers req = .ok r) : AllAgree r.1 := by
  rcases registerWorker_ok_iff.1 hr with ⟨hnew, rfl⟩ | ⟨worker, -, -, rfl⟩
  · intro worker hworker
    rcases List.mem_append.1 hworker with hworker | hworker
    · exact h worker hworker
    · rw [List.mem_singleton] at hworker
      subst hworker
      simp [Agrees, newWorker]
  · exact h.modify (registerRow_id req now) fun _ => by simp [Agrees, registerRow]

/-- One request keeps the agreement exactly if it spares the named tasks. -/
theorem handle_allAgree_iff (cfg : Settings) {s : Served Json} {r : Timed Json}
    (h : AllAgree s.db.workers) : AllAgree (handle cfg s.db r).1.workers ↔ Spares s r := by
  unfold handle Spares
  cases r.request with
  | cleanupTasks => exact cleanupTasks_allAgree_iff h
  | cleanupWorkers =>
    exact iff_of_true (fun worker hworker => h worker (List.mem_filter.1 hworker).1) trivial
  | registerWorker req =>
    refine iff_of_true ?_ trivial
    dsimp only
    split
    · exact registerWorker_allAgree h ‹_›
    · exact h
  | heartbeat req =>
    refine iff_of_true ?_ trivial
    dsimp only
    split
    · exact heartbeat_allAgree h ‹_›
    · exact h
  | submitTask | claimNext | completeTask | failTask =>
    refine iff_of_true ?_ trivial
    dsimp only
    split <;> exact h
  | rescan rank => exact iff_of_true h trivial

theorem step_agreement_iff (cfg : Settings) (s : Served Json) (r : Timed Json) (t : Served Json)
    (h : Agreement s) (hstep : step cfg s r = some t) : Agreement t ↔ Spares s r := by
  obtain ⟨-, -, rfl⟩ := step_inv cfg hstep
  exact handle_allAgree_iff cfg h

/-- All worker rows agree with their task references in every state of a run exactly if
no cleanup of the run deletes a task that a worker row names. -/
theorem agreement_iff (cfg : Settings) (clock : Time) (requests : List (Timed Json)) :
    Throughout (step cfg) Agreement (start clock) requests ↔
      Along (step cfg) Spares (start clock) requests :=
  throughout_iff_along (step_agreement_iff cfg) (by rintro worker ⟨⟩) requests

end Requests

/-- A worker claims a task that is kept for one hour, reports it, and is still rendering
when the retention job comes. -/
def longRenderRequests : List (Timed (List ℕ)) :=
  [⟨0, 0, .registerWorker ⟨"worker-1", "Worker", "session-1", [], none, none⟩⟩,
    ⟨0, 0, .submitTask "a" "image_generation" [] (some 240) (some 1)⟩,
    ⟨0, 0, .claimNext "token" ["image_generation"] "worker-1" none⟩,
    ⟨0, 0, .heartbeat ⟨"worker-1", "session-1", .busy, some "a", some "token",
      some "rendering", none, none, none, none⟩⟩,
    ⟨hours 2, hours 2, .cleanupTasks⟩]

/-- The row is busy and names no task any more. -/
theorem agreement_lost :
    ∃ s, exec (step {}) (start 0) longRenderRequests = some s ∧ ¬Agreement s := by
  refine ⟨_, rfl, fun hagreement => ?_⟩
  have hrow := hagreement _ (.head _)
  exact hrow.1 rfl rfl

end TaskQueue.WorkerAgreement

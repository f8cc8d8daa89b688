import TaskQueue.RouteRefinement
import TaskQueue.TaskLedger

/-!
# The API loses no submission

The tasks behind the HTTP API are those of the submissions that it has answered with success,
less those that the retention job found expired.
-/

namespace TaskQueue.SubmissionRecord
open KeyedTables Schemas SessionServices Routes OwnerIsolation RouteRefinement TaskLedger StepRuns
open SerialRequests (Timed Response)

variable {Json : Type} [EmptyCollection Json] {api : Api Json} {s s' : Running Json}
  {l : RouteRefinement.Label Json} {a : Asked Json} {id : TaskId} {t : Ticket Json}

/-- The step answers a submission with success; its task has this id and ticket. -/
def AnswersSubmission (api : Api Json) (s : Running Json) (l : RouteRefinement.Label Json)
    (id : TaskId) (t : Ticket Json) : Prop :=
  ∃ asked req reply, l = .serve asked ∧ asked.request.route = .submitTask (.given req) ∧
    (serve api asked.env s.server.tables s.server.outside asked.request).1 = .ok reply ∧
    id = asked.env.newId ∧
    t = newTicket api.queue asked.env.now asked.env.createdAt req.taskType req.payload
      req.leaseMinutes req.retentionHours

/-- The retention job runs after the ticket has expired. -/
def Retires (l : RouteRefinement.Label Json) (t : Ticket Json) : Prop :=
  ∃ now, l = .job now .cleanupTasks ∧ t.expiresAt < now

omit [EmptyCollection Json] in
/-- Only a submission submits, and no request of the API runs the retention job. -/
theorem queueRequest_submits {env : Surroundings} {caller : Authentication.AuthUser}
    {route : Route Json} {q : QueueRequest Json} (h : queueRequest env caller route = some q) :
    q ≠ .cleanupTasks ∧ ∀ newId taskType payload leaseMinutes retentionHours,
      q = .submitTask newId taskType payload leaseMinutes retentionHours →
      ∃ req, route = .submitTask (.given req) ∧ newId = env.newId ∧ taskType = req.taskType ∧
        payload = req.payload ∧ leaseMinutes = req.leaseMinutes ∧
        retentionHours = req.retentionHours := by
  unfold queueRequest at h
  split at h
  case h_3 req =>
    cases h
    refine ⟨by simp, ?_⟩
    rintro _ _ _ _ _ ⟨⟩
    exact ⟨req, rfl, rfl, rfl, rfl, rfl, rfl⟩
  all_goals first
    | (cases h; done)
    | cases h
      exact ⟨by simp, by simp⟩
    | obtain ⟨id, -, rfl⟩ := Option.map_eq_some_iff.1 h
      exact ⟨by simp, by simp⟩

/-- A submission that is answered with success was accepted. -/
theorem task_of_shows {cfg : Settings} {db : SerialRequests.Db Json}
    {r : Timed Json} {reply : Routes.Reply Json} {newId taskType : String} {payload : Json}
    {leaseMinutes retentionHours : Option Int}
    (hr : r.request = .submitTask newId taskType payload leaseMinutes retentionHours)
    (h : Shows reply (SerialRequests.handle cfg db r).2) :
    ∃ row, (SerialRequests.handle cfg db r).2 = .task row := by
  simp only [SerialRequests.handle, hr] at h ⊢
  cases hsub : TaskService.submitTask cfg r.now r.later newId db.tasks taskType payload
      leaseMinutes retentionHours with
  | error e =>
    simp only [hsub] at h
    cases reply <;> cases h
  | ok p => exact ⟨p.2, rfl⟩

omit [EmptyCollection Json] in
theorem purges_job_iff (now : Time) (scheduled : Job) :
    Purges (⟨now, now, scheduled.request⟩ : Timed Json) t ↔ Retires (.job now scheduled) t := by
  constructor
  · rintro ⟨hr, hold⟩
    cases scheduled <;> cases hr
    exact ⟨now, rfl, hold⟩
  · rintro ⟨_, hl, hold⟩
    cases hl
    exact ⟨rfl, hold⟩

/-- What one step of the API does to the tickets. -/
theorem step_ticket (h : RouteRefinement.step api s l = some s') (id : TaskId) (t : Ticket Json) :
    (s'.server.tables.tasks.get id).map ticket = some t ↔
      (s.server.tables.tasks.get id).map ticket = some t ∧ ¬Retires l t ∨
        AnswersSubmission api s l id t := by
  cases l with
  | serve a =>
    simp only [RouteRefinement.step] at h
    split_ifs at h with hclock
    cases h
    have hkept : ¬Retires (.serve a) t := by
      rintro ⟨now, hl, -⟩
      cases hl
    rw [and_iff_left hkept]
    cases hreply : (serve api a.env s.server.tables s.server.outside a.request).1 with
    | error e =>
      have hqueue := congrArg (fun db => db.tasks.get id) (served_error hreply).2
      have hnone : ¬AnswersSubmission api s (.serve a) id t := by
        rintro ⟨_, req, reply, ⟨⟩, -, hok, -⟩
        cases hreply.symm.trans hok
      rw [or_iff_left hnone]
      exact iff_of_eq (congrArg (fun found => Option.map ticket found = some t) hqueue)
    | ok reply =>
      obtain ⟨caller, -, -, hcarries⟩ := served_ok hreply
      cases hrequest : timedRequest a.env caller a.request.route with
      | none =>
        rw [hrequest] at hcarries
        have hqueue := congrArg (fun db => db.tasks.get id) hcarries
        have hnone : ¬AnswersSubmission api s (.serve a) id t := by
          rintro ⟨_, req, reply, ⟨⟩, hroute, -⟩
          rw [hroute] at hrequest
          cases hrequest
        rw [or_iff_left hnone]
        exact iff_of_eq (congrArg (fun found => Option.map ticket found = some t) hqueue)
      | some r =>
        rw [hrequest] at hcarries
        obtain ⟨hqueue, hshows⟩ := hcarries
        obtain ⟨q, hq, rfl⟩ := Option.map_eq_some_iff.1 hrequest
        obtain ⟨hjob, hsubmits⟩ := queueRequest_submits hq
        have htickets := handle_ticket api.queue ⟨queueOf s.server.tables, s.clock⟩
          ⟨a.env.now, a.env.createdAt, q⟩ id t
        have hget := congrArg (fun db => db.tasks.get id) hqueue
        refine (iff_of_eq (congrArg (fun found => Option.map ticket found = some t) hget)).trans
          (htickets.trans ?_)
        rw [and_iff_left fun hpurges : Purges _ t => hjob hpurges.1]
        refine or_congr Iff.rfl ⟨?_, ?_⟩
        · rintro ⟨taskType, payload, leaseMinutes, retentionHours, row, hr, -, rfl⟩
          obtain ⟨req, hroute, rfl, rfl, rfl, rfl, rfl⟩ := hsubmits _ _ _ _ _ hr
          exact ⟨a, req, reply, rfl, hroute, hreply, rfl, rfl⟩
        · rintro ⟨_, req, _, ⟨⟩, hroute, -, rfl, rfl⟩
          rw [hroute] at hq
          cases hq
          obtain ⟨row, hrow⟩ := task_of_shows rfl hshows
          exact ⟨_, _, _, _, row, rfl, hrow, rfl⟩
  | job now scheduled =>
    simp only [RouteRefinement.step] at h
    split_ifs at h with hclock
    cases h
    have htickets := handle_ticket api.queue ⟨queueOf s.server.tables, s.clock⟩
      ⟨now, now, scheduled.request⟩ id t
    refine htickets.trans (or_congr (and_congr Iff.rfl (not_congr ?_)) (iff_of_false ?_ ?_))
    · exact purges_job_iff now scheduled
    · rintro ⟨_, _, _, _, _, hr, -⟩
      cases scheduled <;> cases hr
    · rintro ⟨_, _, _, hl, -⟩
      cases hl
  | cleanupArtifacts now =>
    simp only [RouteRefinement.step] at h
    split_ifs at h with hclock
    cases h
    have hkept : ¬Retires (.cleanupArtifacts now : RouteRefinement.Label Json) t := by
      rintro ⟨_, hl, -⟩
      cases hl
    have hnone : ¬AnswersSubmission api s (.cleanupArtifacts now) id t := by
      rintro ⟨_, _, _, hl, -⟩
      cases hl
    rw [and_iff_left hkept, or_iff_left hnone]

/-- After any run of the API and its jobs a task is stored exactly if a submission was answered
with success for it, with the type, the payload and the times of that submission, and the
retention job has not run since after its `expires_at`. -/
theorem submissions_recorded (api : Api Json) (clock : Time)
    (artifacts : ArtifactService.ArtifactTable) (keys : WorkerKeyService.KeyTable)
    (outside : Outside) (ls : List (RouteRefinement.Label Json)) (s : Running Json)
    (hrun : exec (RouteRefinement.step api) (begin clock artifacts keys outside) ls = some s)
    (id : TaskId) (t : Ticket Json) :
    (s.server.tables.tasks.get id).map ticket = some t ↔
      ∃ pre l post m, ls = pre ++ l :: post ∧
        exec (RouteRefinement.step api) (begin clock artifacts keys outside) pre = some m ∧
        AnswersSubmission api m l id t ∧ ∀ l' ∈ post, ¬Retires l' t :=
  stored_iff (I := fun _ => True)
    (fun (s : Running Json) id => (s.server.tables.tasks.get id).map ticket)
    (AnswersSubmission api) Retires
    (fun _ _ _ _ _ => trivial) (fun _ _ _ _ h id t => step_ticket h id t) trivial
    (fun _ => rfl) hrun id t

/-- A submission is answered, and the retention job runs just when its task expires. -/
def dueTask : List (RouteRefinement.Label (List ℕ)) :=
  [asks 2 "" (.submitTask (.given {
      taskType := "text_generation"
      payload := [7]
      retentionHours := some 1 })),
    .job (hours 1 + 2) .cleanupTasks]

theorem submissions_recorded_dueTask :
    ∃ s, exec (RouteRefinement.step RejectedRequests.plainApi)
        (begin 0 Table.empty RejectedRequests.oneWorker.keys ⟨Authentication.emptyCache, ∅⟩)
        dueTask = some s ∧
      (s.server.tables.tasks.get "00000000-0000-4000-8000-000000000002").map ticket =
        some ⟨"text_generation", [7], 60, 2, hours 1 + 2⟩ := by
  refine ⟨_, rfl, (submissions_recorded RejectedRequests.plainApi 0 Table.empty
    RejectedRequests.oneWorker.keys ⟨Authentication.emptyCache, ∅⟩ dueTask _ rfl _ _).2 ?_⟩
  refine ⟨[], _, _, _, rfl, rfl, ⟨_, _, _, rfl, rfl, rfl, rfl, rfl⟩, ?_⟩
  simp only [List.mem_singleton, forall_eq]
  rintro ⟨now, hl, hold⟩
  cases hl
  exact absurd hold (by decide)

end TaskQueue.SubmissionRecord

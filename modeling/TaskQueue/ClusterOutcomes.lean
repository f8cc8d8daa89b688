import TaskQueue.WorkerCluster
import TaskQueue.SettledTasks
import TaskQueue.LoopSurvival

/-!
# Where the stored outcomes come from

Whatever the network does with the calls, and whatever else is asked of the server, an
outcome that is stored for a task is the report of one process about its own work on that
very task, claimed under the token that the row shows.
-/

namespace TaskQueue.ClusterOutcomes
open KeyedTables TaskService SerialRequests LeaseRefinement SettledTasks ClaimNext WorkerLoop
open WorkerCluster StepRuns
open OutcomeFencing (Settled)
open LoopSurvival (NoClaim)

section Rows
variable {Doc : Type} [EmptyCollection Doc] {cfg : Settings} {db : Db Doc} {r : Timed Doc}
  {id : TaskId}

/-- The rows show the same claim of the same task. -/
structure SameClaim (row task : Task Doc) : Prop where
  id : row.id = task.id
  sameTask : SameTask row task
  token : row.claimToken = task.claimToken
  holder : row.claimedBy = task.claimedBy

omit [EmptyCollection Doc] in
theorem SameClaim.refl (task : Task Doc) : SameClaim task task :=
  ⟨rfl, ⟨rfl, rfl, rfl, rfl, rfl⟩, rfl, rfl⟩

omit [EmptyCollection Doc] in
theorem SameClaim.trans {row task task' : Task Doc} (h : SameClaim row task)
    (h' : SameClaim task task') : SameClaim row task' where
  id := h.id.trans h'.id
  sameTask := {
    taskType := h'.sameTask.taskType.trans h.sameTask.taskType
    payload := h'.sameTask.payload.trans h.sameTask.payload
    createdAt := h'.sameTask.createdAt.trans h.sameTask.createdAt
    leaseMinutes := h'.sameTask.leaseMinutes.trans h.sameTask.leaseMinutes
    expiresAt := h'.sameTask.expiresAt.trans h.sameTask.expiresAt }
  token := h.token.trans h'.token
  holder := h.holder.trans h'.holder

omit [EmptyCollection Doc] in
theorem sameClaim_settleRow (outcome : Outcome Doc) (now : Time) (task : Task Doc) :
    SameClaim task (settleRow outcome now task) := by
  cases outcome <;> exact ⟨rfl, ⟨rfl, rfl, rfl, rfl, rfl⟩, rfl, rfl⟩

omit [EmptyCollection Doc] in
/-- A row that is not queued after a claim is the one handed out or was so before. -/
theorem claimNext_held {now : Time} {claimToken : String} {tasks : TaskTable Doc}
    {taskTypes : List String} {workerId : String} {leaseMinutes : Option Int}
    {p : TaskTable Doc × Option (Task Doc)} {task : Task Doc}
    (hp : claimNext now claimToken tasks taskTypes workerId leaseMinutes = .ok p)
    (hg : p.1.get id = some task) (hs : task.status ≠ .queued) :
    p.2 = some task ∨ tasks.get id = some task := by
  have hswept : ∀ {row}, (reclaim taskTypes now tasks).get id = some row →
      row.status ≠ .queued → tasks.get id = some row := by
    intro row hrow hne
    rw [get_reclaim] at hrow
    obtain ⟨old, hold, rfl⟩ := Option.map_eq_some_iff.1 hrow
    by_cases hexpired : Expired taskTypes now old
    · rw [swept_of_expired hexpired] at hne
      exact absurd rfl hne
    · rw [swept_of_not_expired hexpired]
      exact hold
  obtain ⟨-, rfl | ⟨picked, hpicked, -, rfl⟩⟩ := claimNext_ok_cases hp
  · exact .inr (hswept hg hs)
  · rw [Table.get_modify] at hg
    split_ifs at hg with hid
    · rw [hid, hpicked] at hg
      exact .inl hg
    · exact .inr (hswept hg hs)

/-- A row that is not queued after a request is the one handed out, or it was not queued
before and shows the same claim. -/
theorem handle_held {task : Task Doc} (hg : (handle cfg db r).1.tasks.get id = some task)
    (hs : task.status ≠ .queued) :
    (task ∈ handedRow (handle cfg db r).2) ∨
    ∃ old, db.tasks.get id = some old ∧ old.status ≠ .queued ∧ SameClaim old task := by
  by_cases hclaim : ∃ token taskTypes workerId lease,
      r.request = .claimNext token taskTypes workerId lease
  · obtain ⟨token, taskTypes, workerId, lease, hr⟩ := hclaim
    simp only [handle, hr] at hg ⊢
    cases hp : claimNext r.now token db.tasks taskTypes workerId lease with
    | error e =>
      simp only [hp] at hg
      exact .inr ⟨task, hg, hs, .refl task⟩
    | ok p =>
      simp only [hp] at hg ⊢
      rcases claimNext_held hp hg hs with hrow | hold
      · rw [hrow]
        exact .inl List.mem_cons_self
      · exact .inr ⟨task, hold, hs, .refl task⟩
  · refine .inr ?_
    have hother : ∀ {token taskTypes workerId lease},
        r.request ≠ .claimNext token taskTypes workerId lease :=
      fun hr => hclaim ⟨_, _, _, _, hr⟩
    cases hold : db.tasks.get id with
    | none =>
      rcases handle_absent cfg r hold with
        ⟨-, habsent⟩ | ⟨_, _, _, _, added, -, hrow, -, hadded⟩
      · cases habsent.symm.trans hg
      · cases hadded.symm.trans hg
        exact absurd (queuedRow_ok hrow).2.1 hs
    | some old =>
      have hmove := handle_move cfg r hold
      rw [hg] at hmove
      generalize eventsOf cfg id db r = es at hmove
      refine ⟨old, rfl, ?_⟩
      cases hmove with
      | stay => exact ⟨hs, .refl task⟩
      | sweep request expired => exact absurd request hother
      | claim request queued listed => exact absurd request hother
      | reclaim request expired => exact absurd request hother
      | settle request claimed token =>
        exact ⟨by rw [claimed]; decide, sameClaim_settleRow _ _ _⟩
      | renew request named claimed owned token =>
        exact ⟨by rw [claimed]; decide, ⟨rfl, ⟨rfl, rfl, rfl, rfl, rfl⟩, rfl, rfl⟩⟩

/-- A row that is settled after a request was so before, or the request was its outcome. -/
theorem handle_settled {task : Task Doc} (hg : (handle cfg db r).1.tasks.get id = some task)
    (hs : Settled task) :
    db.tasks.get id = some task ∨
    ∃ old claimToken outcome, db.tasks.get id = some old ∧ old.status = .claimed ∧
      old.claimToken = some claimToken ∧ r.request = outcomeRequest id claimToken outcome ∧
      task = settleRow outcome r.now old := by
  cases hold : db.tasks.get id with
  | none =>
    rcases handle_absent cfg r hold with
      ⟨-, habsent⟩ | ⟨_, _, _, _, added, -, hrow, -, hadded⟩
    · cases habsent.symm.trans hg
    · cases hadded.symm.trans hg
      exact absurd hs (not_settled_of_queued (queuedRow_ok hrow).2.1)
  | some old =>
    have hmove := handle_move cfg r hold
    have hid := Table.key_of_get hold
    rw [hg] at hmove
    generalize eventsOf cfg id db r = es at hmove
    cases hmove with
    | stay => exact .inl rfl
    | sweep request expired => exact absurd hs (not_settled_of_queued rfl)
    | claim request queued listed => exact absurd hs (not_settled_of_claimed rfl)
    | reclaim request expired => exact absurd hs (not_settled_of_claimed rfl)
    | settle request claimed token =>
      exact .inr ⟨old, _, _, rfl, claimed, token, hid ▸ request, rfl⟩
    | renew request named claimed owned token =>
      exact absurd hs (not_settled_of_claimed claimed)

/-- The row that a request hands out is claimed under the token it drew. -/
theorem handedRow_claimed {row : Task Doc} (h : row ∈ handedRow (handle cfg db r).2) :
    ∃ claimToken taskTypes workerId leaseMinutes,
      r.request = .claimNext claimToken taskTypes workerId leaseMinutes ∧
      row.claimToken = some claimToken ∧ row.claimedBy = some workerId ∧
      row.taskType ∈ taskTypes := by
  obtain ⟨now, later, request⟩ := r
  cases request with
  | claimNext claimToken taskTypes workerId leaseMinutes =>
    cases hp : claimNext now claimToken db.tasks taskTypes workerId leaseMinutes with
    | error e =>
      simp only [handle, hp] at h
      cases h
    | ok p =>
      simp only [handle, hp] at h
      cases hc : candidate taskTypes (reclaim taskTypes now db.tasks) with
      | none =>
        cases (claimNext_of_none (claimNext_ok_cases hp).1 hc).symm.trans hp
        cases h
      | some picked =>
        cases (claimNext_of_some (claimNext_ok_cases hp).1 hc).symm.trans hp
        rw [handedRow, List.mem_singleton] at h
        subst h
        exact ⟨claimToken, taskTypes, workerId, leaseMinutes, rfl, rfl, rfl,
          (candidate_spec hc).2.2⟩
  | _ =>
    simp only [handle] at h
    first | (split at h <;> cases h) | cases h

end Rows

section Calls

/-- The task that the last claim among some calls has brought. -/
def lastTask (calls : List Call) : Option Json :=
  calls.foldl (fun last call => match call with
    | .claimNext task => task
    | _ => last) none

@[simp] theorem lastTask_claim (calls : List Call) (task : Option Json) :
    lastTask (calls ++ [.claimNext task]) = task := by
  simp [lastTask]

@[simp] theorem lastTask_report (calls : List Call) (report : Report) :
    lastTask (calls ++ [.report report]) = lastTask calls := by
  simp [lastTask]

@[simp] theorem lastTask_heartbeat (calls : List Call) :
    lastTask (calls ++ [.heartbeat]) = lastTask calls := by
  simp [lastTask]

/-- After the claim that brought the last task there has been no other. -/
theorem lastTask_eq_some {calls : List Call} {task : Json} (h : lastTask calls = some task) :
    ∃ before between, calls = before ++ .claimNext (some task) :: between ∧ NoClaim between := by
  induction calls using List.reverseRecOn with
  | nil => cases h
  | append_singleton calls call ih =>
    have hother : ∀ call, (∀ next, call ≠ Call.claimNext next) → lastTask calls = some task →
        ∃ before between, calls ++ [call] = before ++ .claimNext (some task) :: between ∧
          NoClaim between := by
      intro call hne hlast
      obtain ⟨before, between, hcalls, hno⟩ := ih hlast
      refine ⟨before, between ++ [call], by simp [hcalls], fun next hmem => ?_⟩
      rcases List.mem_append.1 hmem with hmem | hmem
      · exact hno next hmem
      · exact hne next (List.mem_singleton.1 hmem).symm
    cases call with
    | claimNext next =>
      rw [lastTask_claim] at h
      subst h
      exact ⟨calls, [], rfl, fun next hmem => by cases hmem⟩
    | report report => exact hother _ (by simp) (by simpa using h)
    | heartbeat => exact hother _ (by simp) (by simpa using h)

end Calls

section Documents
variable {d : Deployment} {row : Task Json}

theorem field_id : (claimDocument d.isoformat row).field "id" = some (.string row.id) := rfl

theorem field_taskType :
    (claimDocument d.isoformat row).field "task_type" = some (.string row.taskType) := rfl

theorem field_payload :
    (claimDocument d.isoformat row).field "payload" = some row.payload := rfl

theorem field_claimToken : (claimDocument d.isoformat row).field "claim_token" =
    some (nullable .string row.claimToken) := rfl

/-- What the loop reads of the row that a claim returns. -/
theorem prepare_claimDocument {claimed : ClaimedTask}
    (h : prepare d.env (claimDocument d.isoformat row) = some claimed) :
    claimed = ⟨.string row.id, nullable .string row.claimToken, row.taskType⟩ := by
  unfold prepare at h
  rw [field_id, field_taskType, field_claimToken] at h
  dsimp only at h
  split_ifs at h
  exact (Option.some.inj h).symm

/-- The report of an outcome under a claim. -/
def reportFor (taskId : TaskId) (claimToken : String) : TaskService.Outcome Json → Report
  | .complete result => .completeTask (.string taskId) (.string claimToken) result
  | .fail error => .failTask (.string taskId) (.string claimToken) error

/-- A call that the server reads as an outcome is the report of this outcome. -/
theorem sent_of_outcome {config : Config} {token : String} {sent : Sent} {taskId : TaskId}
    {claimToken : String} {outcome : TaskService.Outcome Json}
    (h : asked config token sent = some (outcomeRequest taskId claimToken outcome)) :
    sent = .report (reportFor taskId claimToken outcome) := by
  unfold asked at h
  split at h
  · cases outcome <;> cases h
  · cases outcome <;> cases h
    rfl
  · cases outcome <;> cases h
    rfl
  · cases h

end Documents

section Provenance
variable (d : Deployment) (work : ℕ → Json → WorkerLoop.Outcome → Prop)

/-- A process has been handed a row and has since made this report of its own work on it. -/
structure Reported (s : Cluster) (process : ℕ) (row : Task Json) (report : Report) : Prop where
  granted : (some process, row) ∈ s.grants
  calls : ∃ before between after, (s.loops process).calls =
    before ++ .claimNext (some (claimDocument d.isoformat row)) ::
      (between ++ .report report :: after) ∧ NoClaim between
  outcome : ∃ claimed outcome, prepare d.env (claimDocument d.isoformat row) = some claimed ∧
    work process (claimDocument d.isoformat row) outcome ∧
      reportOf d.env claimed outcome = some report

/-- The row holds what the report says. -/
def Carries : Report → Task Json → Prop
  | .completeTask _ _ result, task => task.status = .done ∧ task.result = some result
  | .failTask _ _ error, task => task.status = .failed ∧ task.error = some error

/-- The stored outcome of a task is the report of the process that the row names, made under
the token that the row shows, about the task as it was submitted. -/
def Authentic (s : Cluster) (task : Task Json) : Prop :=
  ∃ process row report, Reported d work s process row report ∧ SameClaim row task ∧
    task.claimedBy = some (d.config process).workerId ∧ Carries report task

/-- What a process in this phase knows about its task. -/
def Knows (s : Cluster) (process : ℕ) : Prop :=
  match (s.loops process).phase with
  | .working claimed => ∃ row, (some process, row) ∈ s.grants ∧
      lastTask (s.loops process).calls = some (claimDocument d.isoformat row) ∧
      prepare d.env (claimDocument d.isoformat row) = some claimed
  | .reporting report => ∃ row claimed outcome, (some process, row) ∈ s.grants ∧
      lastTask (s.loops process).calls = some (claimDocument d.isoformat row) ∧
      prepare d.env (claimDocument d.isoformat row) = some claimed ∧
      work process (claimDocument d.isoformat row) outcome ∧
      reportOf d.env claimed outcome = some report
  | _ => True

/-- What is only added to while the system runs: grants and the calls of each process. -/
structure Grows (s t : Cluster) : Prop where
  grants : ∀ g ∈ s.grants, g ∈ t.grants
  calls : ∀ process, (s.loops process).calls <+: (t.loops process).calls

theorem Grows.trans {s t u : Cluster} (h : Grows s t) (h' : Grows t u) : Grows s u :=
  ⟨fun g hg => h'.grants g (h.grants g hg), fun i => (h.calls i).trans (h'.calls i)⟩

variable {d} {work} {s t : Cluster} {process : ℕ} {row : Task Json} {report : Report}

theorem Reported.mono (h : Reported d work s process row report) (hg : Grows s t) :
    Reported d work t process row report where
  granted := hg.grants _ h.granted
  calls := by
    obtain ⟨before, between, after, hcalls, hno⟩ := h.calls
    obtain ⟨more, hmore⟩ := hg.calls process
    exact ⟨before, between, after ++ more, by rw [← hmore, hcalls]; simp, hno⟩
  outcome := h.outcome

theorem Authentic.mono {task : Task Json} (h : Authentic d work s task) (hg : Grows s t) :
    Authentic d work t task := by
  obtain ⟨process, row, report, hreported, hrest⟩ := h
  exact ⟨process, row, report, hreported.mono hg, hrest⟩

/-- A process that makes its report has reported. -/
theorem reported_of_knows (h : Knows d work s process)
    (hphase : (s.loops process).phase = .reporting report) (hg : Grows s t)
    (hcalls : (t.loops process).calls = (s.loops process).calls ++ [.report report]) :
    ∃ row, Reported d work t process row report := by
  simp only [Knows, hphase] at h
  obtain ⟨row, claimed, outcome, hgrant, hlast, hprepare, hwork, hreport⟩ := h
  obtain ⟨before, between, hbetween, hno⟩ := lastTask_eq_some hlast
  refine ⟨row, hg.grants _ hgrant, ⟨before, between, [], ?_, hno⟩,
    ⟨claimed, outcome, hprepare, hwork, hreport⟩⟩
  rw [hcalls, hbetween]
  simp

/-- The report of a process about a row names the id and the token of the row. -/
theorem names_of_reportOf {taskId : TaskId} {claimToken : String}
    {outcome : TaskService.Outcome Json} {claimed : ClaimedTask} {own : WorkerLoop.Outcome}
    (hprepare : prepare d.env (claimDocument d.isoformat row) = some claimed)
    (hreport : reportOf d.env claimed own = some (reportFor taskId claimToken outcome)) :
    row.id = taskId ∧ row.claimToken = some claimToken := by
  have hclaimed := prepare_claimDocument hprepare
  subst hclaimed
  cases hk : row.claimToken with
  | none =>
    cases own with
    | result result => cases outcome <;> simp [reportOf, reportFor, hk, nullable] at hreport
    | raised text =>
      cases outcome <;> simp [reportOf, reportFor, hk, nullable] at hreport
  | some token =>
    cases own with
    | result result =>
      cases outcome <;> simp [reportOf, reportFor, hk, nullable] at hreport
      simp [hreport]
    | raised text =>
      cases outcome <;> simp [reportOf, reportFor, hk, nullable] at hreport
      simp [hreport]

theorem Reported.names {taskId : TaskId} {claimToken : String}
    {outcome : TaskService.Outcome Json}
    (h : Reported d work s process row (reportFor taskId claimToken outcome)) :
    row.id = taskId ∧ row.claimToken = some claimToken := by
  obtain ⟨claimed, own, hprepare, -, hreport⟩ := h.outcome
  exact names_of_reportOf hprepare hreport

end Provenance

section Server
variable {d : Deployment} {clock : Time} {s t : Cluster} {sender : Option ℕ}
  {r : Timed Json} {response : Response Json}

/-- What the server, its log and the grants have to do with each other. -/
structure ServerInv (d : Deployment) (clock : Time) (s : Cluster) : Prop where
  run : exec (step d.settings) (SerialRequests.start clock) s.log = some s.server
  fresh : FreshDraws s.log
  drawn : ∀ sender row, (sender, row) ∈ s.grants → ∃ claimToken,
    row.claimToken = some claimToken ∧ claimToken ∈ s.log.filterMap fun r => drawn r.request
  unique : ∀ g ∈ s.grants, ∀ g' ∈ s.grants, g.2.claimToken = g'.2.claimToken → g = g'
  holders : ∀ process row, (some process, row) ∈ s.grants →
    row.claimedBy = some (d.config process).workerId
  held : ∀ id task, s.server.db.tasks.get id = some task → task.status ≠ .queued →
    ∃ sender row, (sender, row) ∈ s.grants ∧ SameClaim row task

/-- A claim is made in the name of its process. -/
def InOwnName (d : Deployment) (sender : Option ℕ) (request : Request Json) : Prop :=
  ∀ process token taskTypes workerId lease, sender = some process →
    request = .claimNext token taskTypes workerId lease → workerId = (d.config process).workerId

theorem inOwnName_of_asked {process : ℕ} {token : String} {sent : Sent} {request : Request Json}
    (h : requestOf d.jsonb (d.config process) token sent = some request) :
    InOwnName d (some process) request := by
  rintro process' token' taskTypes workerId lease ⟨⟩ rfl
  replace h := asked_of_requestOf h
  unfold asked at h
  split at h <;> cases h
  rfl

theorem serve_frame (h : serve d s sender r = some (t, response)) :
    Grows s t ∧ t.loops = s.loops ∧ t.inFlight = s.inFlight := by
  obtain ⟨-, server, -, -, rfl⟩ := serve_inv h
  exact ⟨⟨fun g hg => List.mem_append_left _ hg, fun _ => List.prefix_rfl⟩, rfl, rfl⟩

/-- What the server hands out is on record. -/
theorem granted_of_served (h : serve d s sender r = some (t, response)) {row : Task Json}
    (hrow : row ∈ handedRow response) : (sender, row) ∈ t.grants := by
  obtain ⟨-, server, -, rfl, rfl⟩ := serve_inv h
  exact List.mem_append_right _ (List.mem_map_of_mem hrow)

theorem serve_serverInv (hs : ServerInv d clock s) (hname : InOwnName d sender r.request)
    (h : serve d s sender r = some (t, response)) : ServerInv d clock t := by
  obtain ⟨hfresh, server, hserver, rfl, rfl⟩ := serve_inv h
  obtain ⟨-, -, hserver'⟩ := SerialRequests.step_inv d.settings hserver
  have hold : ∀ {token}, (token ∈ s.log.filterMap fun r => drawn r.request) →
      token ∈ (s.log ++ [r]).filterMap fun r => drawn r.request := fun hmem => by
    rw [List.filterMap_append]
    exact List.mem_append_left _ hmem
  -- What is handed out now carries the token of this request, which is a new one.
  have hnew : ∀ row ∈ handedRow (handle d.settings s.server.db r).2, ∃ claimToken,
      row.claimToken = some claimToken ∧ drawn r.request = some claimToken := by
    intro row hrow
    obtain ⟨token, _, _, _, hr, htoken, -⟩ := handedRow_claimed hrow
    exact ⟨token, htoken, by rw [hr]; rfl⟩
  have hcases : ∀ g, g ∈ s.grants ++
      ((handedRow (handle d.settings s.server.db r).2).map fun row => (sender, row)) →
      g ∈ s.grants ∨ g.1 = sender ∧ g.2 ∈ handedRow (handle d.settings s.server.db r).2 := by
    intro g hg
    rcases List.mem_append.1 hg with hg | hg
    · exact .inl hg
    · obtain ⟨row, hrow, rfl⟩ := List.mem_map.1 hg
      exact .inr ⟨rfl, hrow⟩
  have hapart : ∀ g ∈ s.grants, ∀ row ∈ handedRow (handle d.settings s.server.db r).2,
      g.2.claimToken ≠ row.claimToken := by
    intro g hg row hrow heq
    obtain ⟨token, htoken, hmem⟩ := hs.drawn g.1 g.2 hg
    obtain ⟨token', htoken', hdrawn⟩ := hnew row hrow
    obtain rfl : token = token' :=
      Option.some.inj (htoken.symm.trans (heq.trans htoken'))
    exact hfresh.drawn_new hdrawn hmem
  refine ⟨?_, hfresh, ?_, ?_, ?_, ?_⟩
  · rw [exec_append hs.run, exec_cons_of_step hserver]
    rfl
  · intro sender' row hg
    rcases hcases _ hg with hg | ⟨-, hrow⟩
    · obtain ⟨token, htoken, hmem⟩ := hs.drawn sender' row hg
      exact ⟨token, htoken, hold hmem⟩
    · obtain ⟨token, htoken, hdrawn⟩ := hnew row hrow
      exact ⟨token, htoken, by simp [hdrawn]⟩
  · intro g hg g' hg' heq
    rcases hcases g hg with hg | ⟨hsender, hrow⟩ <;>
      rcases hcases g' hg' with hg' | ⟨hsender', hrow'⟩
    · exact hs.unique g hg g' hg' heq
    · exact absurd heq (hapart g hg _ hrow')
    · exact absurd heq.symm (hapart g' hg' _ hrow)
    · refine Prod.ext (hsender.trans hsender'.symm) ?_
      cases hresponse : (handle d.settings s.server.db r).2 with
      | claimed found =>
        rw [hresponse] at hrow hrow'
        cases found with
        | none => cases hrow
        | some row => exact (List.mem_singleton.1 hrow).trans (List.mem_singleton.1 hrow').symm
      | _ => rw [hresponse] at hrow; cases hrow
  · intro process row hg
    rcases hcases _ hg with hg | ⟨hsender, hrow⟩
    · exact hs.holders process row hg
    · obtain ⟨token, taskTypes, workerId, lease, hr, -, hholder, -⟩ := handedRow_claimed hrow
      rw [hholder, hname process token taskTypes workerId lease hsender.symm hr]
  · intro id task hg hne
    have hg' : (handle d.settings s.server.db r).1.tasks.get id = some task := by
      rw [hserver'] at hg
      exact hg
    rcases handle_held hg' hne with hrow | ⟨old, hold', hne', hsame⟩
    · exact ⟨sender, task, List.mem_append_right _ (List.mem_map_of_mem hrow), .refl task⟩
    · obtain ⟨sender', row, hgrant, hrow⟩ := hs.held id old hold' hne'
      exact ⟨sender', row, List.mem_append_left _ hgrant, hrow.trans hsame⟩

end Server

section Processes
variable {d : Deployment} {work : ℕ → Json → WorkerLoop.Outcome → Prop} {clock : Time}
  {s m t : Cluster} {process : ℕ} {reply : Reply}

/-- What every reachable state keeps. -/
structure Inv (d : Deployment) (work : ℕ → Json → WorkerLoop.Outcome → Prop) (clock : Time)
    (s : Cluster) : Prop where
  server : ServerInv d clock s
  flights : ∀ process report, (process, .report report) ∈ s.inFlight →
    ∃ row, Reported d work s process row report
  knows : ∀ process, Knows d work s process
  settled : ∀ id task, s.server.db.tasks.get id = some task → Settled task →
    Authentic d work s task

theorem Knows.mono (h : Knows d work s process) (hloop : t.loops process = s.loops process)
    (hg : Grows s t) : Knows d work t process := by
  unfold Knows at h ⊢
  rw [hloop]
  cases hphase : (s.loops process).phase with
  | working claimed =>
    simp only [hphase] at h ⊢
    obtain ⟨row, hgrant, hrest⟩ := h
    exact ⟨row, hg.grants _ hgrant, hrest⟩
  | reporting report =>
    simp only [hphase] at h ⊢
    obtain ⟨row, claimed, outcome, hgrant, hrest⟩ := h
    exact ⟨row, claimed, outcome, hg.grants _ hgrant, hrest⟩
  | _ => trivial

/-- An answer that brings no document brings no task. -/
theorem no_task_of_bare (h : Reply.bare reply = true) (task : Json) :
    claimNextTask d.env reply ≠ .ok (some task) := by
  cases reply with
  | networkError => simp [claimNextTask, clientClaimNext]
  | response status body =>
    by_cases hempty : status = 204
    · simp [claimNextTask, clientClaimNext, hempty]
    by_cases hstatus : 200 ≤ status ∧ status < 300
    · cases body with
      | notJson => simp [claimNextTask, clientClaimNext, readJson, hempty, hstatus]
      | json document => simp [Reply.bare, hstatus] at h
    · simp [claimNextTask, clientClaimNext, readJson, hempty, hstatus]

/-- A row that a claim was answered with is the task that it brings. -/
theorem document_of_claimed {row : Task Json} {task : Json}
    (h : claimNextTask d.env (replyTo d.isoformat (.claimed (some row))) = .ok (some task)) :
    task = claimDocument d.isoformat row := by
  have hread : clientClaimNext d.env (replyTo d.isoformat (.claimed (some row))) =
      if d.env.parses (claimDocument d.isoformat row) = true then
        .ok (claimDocument d.isoformat row)
      else .error .valueError := rfl
  rw [claimNextTask, hread] at h
  split_ifs at h
  exact (Option.some.inj (Except.ok.inj h)).symm

/-- The task that an answer of the server to a claim brings is the row it hands out. -/
theorem task_of_claimed {r : Timed Json} {db : Db Json} {claimToken : String}
    {taskTypes : List String} {workerId : String} {lease : Option Int} {task : Json}
    (hr : r.request = .claimNext claimToken taskTypes workerId lease)
    (h : claimNextTask d.env (replyTo d.isoformat (handle d.settings db r).2) =
      .ok (some task)) :
    ∃ row ∈ handedRow (handle d.settings db r).2, task = claimDocument d.isoformat row := by
  simp only [handle, hr] at h ⊢
  cases hp : claimNext r.now claimToken db.tasks taskTypes workerId lease with
  | error e =>
    simp only [hp] at h
    cases h
  | ok p =>
    simp only [hp] at h ⊢
    cases hrow : p.2 with
    | none =>
      rw [hrow] at h
      cases h
    | some row =>
      rw [hrow] at h
      exact ⟨row, List.mem_cons_self, document_of_claimed h⟩

/-- Only the process that hears an answer moves. -/
theorem setLoop_frame (s : Cluster) (process : ℕ) (loop : Loop)
    (hcalls : (s.loops process).calls <+: loop.calls) :
    Grows s (setLoop s process loop) ∧
      ∀ i, i ≠ process → (setLoop s process loop).loops i = s.loops i := by
  refine ⟨⟨fun _ hg => hg, fun i => ?_⟩, fun i hi => setLoop_of_ne s hi loop⟩
  by_cases hi : i = process
  · subst hi
    rw [setLoop_self]
    exact hcalls
  · simp only [setLoop_of_ne s hi, List.prefix_rfl]

/-- What a process makes of the answer to its call. -/
structure Heard (d : Deployment) (work : ℕ → Json → WorkerLoop.Outcome → Prop) (s t : Cluster)
    (process : ℕ) : Prop where
  grows : Grows s t
  others : ∀ i, i ≠ process → t.loops i = s.loops i
  server : t.server = s.server
  log : t.log = s.log
  grants : t.grants = s.grants
  inFlight : t.inFlight = s.inFlight
  knows : Knows d work t process
  reported : ∀ report, (s.loops process).phase = .reporting report →
    (t.loops process).calls = (s.loops process).calls ++ [.report report]

theorem hear_spec (h : hear d s process reply = some t)
    (hclaim : (s.loops process).phase = .polling → ∀ task,
      claimNextTask d.env reply = .ok (some task) →
      ∃ row, (some process, row) ∈ s.grants ∧ task = claimDocument d.isoformat row) :
    Heard d work s t process := by
  obtain ⟨loop, hloop, rfl⟩ := hear_inv h
  cases hphase : (s.loops process).phase with
  | polling =>
    simp only [hphase, answerLabel, WorkerLoop.step] at hloop
    cases htask : claimNextTask d.env reply with
    | error e =>
      simp only [htask] at hloop
      cases hloop
      obtain ⟨hg, ho⟩ := setLoop_frame s process
        ⟨.ended, (s.loops process).calls ++ [.claimNext none]⟩ (List.prefix_append _ _)
      exact ⟨hg, ho, rfl, rfl, rfl, rfl, by simp only [Knows, setLoop_self], by simp [hphase]⟩
    | ok found =>
      cases found with
      | none =>
        simp only [htask] at hloop
        cases hloop
        obtain ⟨hg, ho⟩ := setLoop_frame s process
          ⟨.idle, (s.loops process).calls ++ [.claimNext none]⟩ (List.prefix_append _ _)
        exact ⟨hg, ho, rfl, rfl, rfl, rfl, by simp only [Knows, setLoop_self], by simp [hphase]⟩
      | some task =>
        obtain ⟨row, hgrant, hdoc⟩ := hclaim hphase task htask
        simp only [htask] at hloop
        cases hprepare : prepare d.env task with
        | none =>
          simp only [hprepare] at hloop
          cases hloop
          obtain ⟨hg, ho⟩ := setLoop_frame s process
            ⟨.ended, (s.loops process).calls ++ [.claimNext (some task)]⟩
            (List.prefix_append _ _)
          exact ⟨hg, ho, rfl, rfl, rfl, rfl, by simp only [Knows, setLoop_self], by simp [hphase]⟩
        | some claimed =>
          simp only [hprepare] at hloop
          cases hloop
          obtain ⟨hg, ho⟩ := setLoop_frame s process
            ⟨.working claimed, (s.loops process).calls ++ [.claimNext (some task)]⟩
            (List.prefix_append _ _)
          refine ⟨hg, ho, rfl, rfl, rfl, rfl, ?_, by simp [hphase]⟩
          simp only [Knows, setLoop_self]
          exact ⟨row, hgrant, by rw [lastTask_claim, hdoc], hdoc ▸ hprepare⟩
  | reporting report =>
    simp only [hphase, answerLabel, WorkerLoop.step] at hloop
    cases hloop
    obtain ⟨hg, ho⟩ := setLoop_frame s process
      ⟨if reportReturns d.env report reply then .polling else .ended,
        (s.loops process).calls ++ [.report report]⟩ (List.prefix_append _ _)
    refine ⟨hg, ho, rfl, rfl, rfl, rfl, ?_, ?_⟩
    · simp only [Knows, setLoop_self]
      cases reportReturns d.env report reply <;> trivial
    · intro report' hreport
      cases hphase.symm.trans hreport
      rw [setLoop_self]
  | _ => simp [hphase, answerLabel, WorkerLoop.step] at hloop

/-- What the settled rows of a server say is authentic, if the outcome that it has handled
is the report of a process. -/
theorem settled_of_served {sender : Option ℕ} {r : Timed Json} {response : Response Json}
    (hinv : ServerInv d clock s)
    (hold : ∀ id task, s.server.db.tasks.get id = some task → Settled task →
      Authentic d work s task)
    (hserved : serve d s sender r = some (m, response)) (hm : ServerInv d clock m)
    (hgrants : t.grants = m.grants) (hg : Grows s t)
    (hreport : ∀ id token outcome, r.request = outcomeRequest id token outcome →
      ∃ process row, Reported d work t process row (reportFor id token outcome))
    (id : TaskId) (task : Task Json) (hget : m.server.db.tasks.get id = some task)
    (hs : Settled task) : Authentic d work t task := by
  obtain ⟨-, server, hserver, -, rfl⟩ := serve_inv hserved
  obtain ⟨-, -, rfl⟩ := SerialRequests.step_inv d.settings hserver
  rcases handle_settled hget hs with hkept | ⟨old, token, outcome, hget', hst, htok, hr, rfl⟩
  · exact (hold id task hkept hs).mono hg
  · obtain ⟨process, row, hrow⟩ := hreport id token outcome hr
    obtain ⟨hid, htoken⟩ := hrow.names
    obtain ⟨sender', row', hgrant', hsame⟩ := hinv.held id old hget' (by rw [hst]; decide)
    have hrow' : (some process, row) = (sender', row') :=
      hm.unique _ (hgrants ▸ hrow.granted) _ (List.mem_append_left _ hgrant')
        (htoken.trans (htok.symm.trans hsame.token.symm))
    cases hrow'
    have hsettle := hsame.trans (sameClaim_settleRow outcome r.now old)
    refine ⟨process, row, _, hrow, hsettle, ?_, ?_⟩
    · rw [← hsettle.holder]
      exact hm.holders process row (hgrants ▸ hrow.granted)
    · cases outcome <;> exact ⟨rfl, rfl⟩

theorem ServerInv.of_heard (h : ServerInv d clock m) (hh : Heard d work m t process) :
    ServerInv d clock t := by
  obtain ⟨hrun, hfresh, hdrawn, hunique, hholders, hheld⟩ := h
  exact ⟨by rw [hh.log, hh.server]; exact hrun, by rw [hh.log]; exact hfresh,
    by rw [hh.grants, hh.log]; exact hdrawn, by rw [hh.grants]; exact hunique,
    by rw [hh.grants]; exact hholders, by rw [hh.server, hh.grants]; exact hheld⟩

/-- What has to be seen of a state for the invariant to go on. -/
theorem Inv.of_grown (hs : Inv d work clock s) (ht : ServerInv d clock t) (hg : Grows s t)
    (hflights : ∀ process report, (process, .report report) ∈ t.inFlight →
      (process, .report report) ∈ s.inFlight ∨ ∃ row, Reported d work t process row report)
    (hknows : ∀ i, Knows d work t i ∨ t.loops i = s.loops i)
    (hsettled : ∀ id task, t.server.db.tasks.get id = some task → Settled task →
      Authentic d work t task) : Inv d work clock t where
  server := ht
  flights process report hmem := by
    rcases hflights process report hmem with hmem | hreported
    · obtain ⟨row, hrow⟩ := hs.flights process report hmem
      exact ⟨row, hrow.mono hg⟩
    · exact hreported
  knows i := by
    rcases hknows i with hknows | hloop
    · exact hknows
    · exact (hs.knows i).mono hloop hg
  settled := hsettled

/-- A process that makes no call keeps the invariant, if it knows its task. -/
theorem setLoop_inv {loop : Loop} (hs : Inv d work clock s)
    (hcalls : loop.calls = (s.loops process).calls)
    (hknows : Knows d work (setLoop s process loop) process) :
    Inv d work clock (setLoop s process loop) := by
  obtain ⟨hg, ho⟩ := setLoop_frame s process loop
    (hcalls ▸ List.prefix_rfl)
  have hserver : ServerInv d clock (setLoop s process loop) := ⟨hs.server.run, hs.server.fresh,
    hs.server.drawn, hs.server.unique, hs.server.holders, hs.server.held⟩
  refine hs.of_grown hserver hg (fun _ _ => .inl) (fun i => ?_)
    fun id task hget hst => (hs.settled id task hget hst).mono hg
  by_cases hi : i = process
  · exact .inl (hi ▸ hknows)
  · exact .inr (ho i hi)

/-- A process that reports the request it makes has reported it once it has heard. -/
theorem reported_of_served {sent : Sent} {claimToken : String} {id : TaskId} {token : String}
    {outcome : TaskService.Outcome Json} (hknows : Knows d work s process)
    (hcall : sentOf d.env (s.loops process).phase = some sent)
    (hasked : asked (d.config process) claimToken sent = some (outcomeRequest id token outcome))
    (hloops : m.loops = s.loops) (hh : Heard d work m t process) (hgrows : Grows s t) :
    ∃ row, Reported d work t process row (reportFor id token outcome) := by
  have hsent := sent_of_outcome hasked
  cases hphase : (s.loops process).phase with
  | reporting report =>
    rw [hphase, sentOf] at hcall
    split_ifs at hcall
    cases hcall
    cases hsent
    have hcalls := hh.reported _ (by rw [hloops]; exact hphase)
    rw [hloops] at hcalls
    exact reported_of_knows hknows hphase hgrows hcalls
  | polling =>
    rw [hphase] at hcall
    cases hcall
    cases hsent
  | _ => rw [hphase] at hcall; cases hcall

/-- A task that a process hears of is one that the server has handed it. -/
theorem heard_of_served {sent : Sent} {claimToken : String} {request : Request Json}
    {now later : Time} {response : Response Json}
    (hcall : sentOf d.env (s.loops process).phase = some sent)
    (hasked : asked (d.config process) claimToken sent = some request)
    (hserved : serve d s (some process) ⟨now, later, request⟩ = some (m, response))
    (hanswer : reply = replyTo d.isoformat response ∨ Reply.bare reply = true)
    (hheard : hear d m process reply = some t) : Heard d work m t process := by
  obtain ⟨-, hloops, -⟩ := serve_frame hserved
  refine hear_spec hheard fun hphase task htask => ?_
  rcases hanswer with rfl | hbare
  · rw [hloops] at hphase
    rw [hphase] at hcall
    cases hcall
    obtain ⟨-, server, -, hresponse, -⟩ := serve_inv hserved
    cases hasked
    rw [hresponse] at htask
    obtain ⟨row, hrow, hdoc⟩ := task_of_claimed rfl htask
    exact ⟨row, granted_of_served hserved (hresponse ▸ hrow), hdoc⟩
  · exact absurd htask (no_task_of_bare hbare task)

theorem served_inv {sent : Sent} {claimToken : String} {request : Request Json}
    {now later : Time} {response : Response Json} (hs : Inv d work clock s)
    (hcall : sentOf d.env (s.loops process).phase = some sent)
    (hasked : requestOf d.jsonb (d.config process) claimToken sent = some request)
    (hserved : serve d s (some process) ⟨now, later, request⟩ = some (m, response))
    (hanswer : reply = replyTo d.isoformat response ∨ Reply.bare reply = true)
    (hheard : hear d m process reply = some t) : Inv d work clock t := by
  obtain ⟨hg, hloops, hflights⟩ := serve_frame hserved
  have hm := serve_serverInv hs.server (inOwnName_of_asked hasked) hserved
  have hh : Heard d work m t process :=
    heard_of_served hcall (asked_of_requestOf hasked) hserved hanswer hheard
  have hgrows := hg.trans hh.grows
  refine hs.of_grown (hm.of_heard hh) hgrows ?_ (fun i => ?_) ?_
  · rw [hh.inFlight, hflights]
    exact fun _ _ => .inl
  · by_cases hi : i = process
    · exact .inl (hi ▸ hh.knows)
    · exact .inr ((hh.others i hi).trans (congrFun hloops i))
  · rw [hh.server]
    refine settled_of_served hs.server hs.settled hserved hm hh.grants hgrows ?_
    rintro id token outcome rfl
    obtain ⟨row, hrow⟩ := reported_of_served (hs.knows process) hcall
      (asked_of_requestOf hasked) hloops hh hgrows
    exact ⟨process, row, hrow⟩

theorem unserved_inv (hs : Inv d work clock s) (hbare : Reply.bare reply = true)
    (hheard : hear d s process reply = some t) : Inv d work clock t := by
  have hh : Heard d work s t process :=
    hear_spec hheard fun _ task htask => absurd htask (no_task_of_bare hbare task)
  refine hs.of_grown (hs.server.of_heard hh) hh.grows ?_ (fun i => ?_) ?_
  · rw [hh.inFlight]
    exact fun _ _ => .inl
  · by_cases hi : i = process
    · exact .inl (hi ▸ hh.knows)
    · exact .inr (hh.others i hi)
  · rw [hh.server]
    exact fun id task hget hst => (hs.settled id task hget hst).mono hh.grows

/-- The server does not depend on what is in flight. -/
theorem ServerInv.of_inFlight (h : ServerInv d clock s) (inFlight : List (ℕ × Sent)) :
    ServerInv d clock { s with inFlight := inFlight } :=
  ⟨h.run, h.fresh, h.drawn, h.unique, h.holders, h.held⟩

theorem delayed_inv {sent : Sent} (hs : Inv d work clock s)
    (hcall : sentOf d.env (s.loops process).phase = some sent) (hbare : Reply.bare reply = true)
    (hheard : hear d { s with inFlight := s.inFlight ++ [(process, sent)] } process reply =
      some t) : Inv d work clock t := by
  have hh : Heard d work { s with inFlight := s.inFlight ++ [(process, sent)] } t process :=
    hear_spec hheard fun _ task htask => absurd htask (no_task_of_bare hbare task)
  have hgrows : Grows s t := ⟨hh.grows.grants, hh.grows.calls⟩
  refine hs.of_grown ((hs.server.of_inFlight _).of_heard hh) hgrows ?_ (fun i => ?_) ?_
  · rw [hh.inFlight]
    intro process' report hmem
    rcases List.mem_append.1 hmem with hmem | hmem
    · exact .inl hmem
    · -- The call that was given up is the report the process was about to make.
      cases List.mem_singleton.1 hmem
      cases hphase : (s.loops process).phase with
      | reporting own =>
        rw [hphase, sentOf] at hcall
        split_ifs at hcall
        cases hcall
        exact .inr (reported_of_knows (hs.knows process) hphase hgrows (hh.reported _ hphase))
      | polling => rw [hphase] at hcall; cases hcall
      | _ => rw [hphase] at hcall; cases hcall
  · by_cases hi : i = process
    · exact .inl (hi ▸ hh.knows)
    · exact .inr (hh.others i hi)
  · rw [hh.server]
    exact fun id task hget hst => (hs.settled id task hget hst).mono hgrows

theorem arrived_inv {index : ℕ} {sent : Sent} {claimToken : String} {request : Request Json}
    {now later : Time} {response : Response Json} (hs : Inv d work clock s)
    (hfound : s.inFlight[index]? = some (process, sent))
    (hasked : requestOf d.jsonb (d.config process) claimToken sent = some request)
    (hserved : serve d { s with inFlight := s.inFlight.eraseIdx index } (some process)
      ⟨now, later, request⟩ = some (t, response)) : Inv d work clock t := by
  have hmem : (process, sent) ∈ s.inFlight := List.mem_of_getElem? hfound
  have hserver := hs.server.of_inFlight (s.inFlight.eraseIdx index)
  obtain ⟨hg, hloops, hflights⟩ := serve_frame hserved
  have hgrows : Grows s t := ⟨hg.grants, hg.calls⟩
  have ht := serve_serverInv hserver (inOwnName_of_asked hasked) hserved
  refine hs.of_grown ht hgrows ?_ (fun i => .inr (congrFun hloops i)) ?_
  · rw [hflights]
    exact fun _ _ hmem' => .inl (List.mem_of_mem_eraseIdx hmem')
  · refine settled_of_served hserver (s := { s with inFlight := s.inFlight.eraseIdx index })
      (fun id task hget hst => (hs.settled id task hget hst).mono ⟨fun _ h => h,
        fun _ => List.prefix_rfl⟩) hserved ht rfl hg ?_
    rintro id token outcome rfl
    cases sent_of_outcome (asked_of_requestOf hasked)
    obtain ⟨row, hrow⟩ := hs.flights process _ hmem
    exact ⟨process, row, hrow.mono hgrows⟩

theorem worked_inv {outcome : WorkerLoop.Outcome} {loop : Loop} (hs : Inv d work clock s)
    (hmoved : WorkerLoop.step d.env (s.loops process) (.runTask outcome) = some loop)
    (hwork : ∀ task, lastTask (s.loops process).calls = some task → work process task outcome) :
    Inv d work clock (setLoop s process loop) := by
  simp only [WorkerLoop.step] at hmoved
  split at hmoved
  · rename_i claimed hphase
    split at hmoved
    · cases hmoved
      refine setLoop_inv hs rfl ?_
      simp only [Knows, setLoop_self]
    · rename_i report hreport
      cases hmoved
      refine setLoop_inv hs rfl ?_
      have hknows := hs.knows process
      simp only [Knows, hphase] at hknows
      simp only [Knows, setLoop_self]
      obtain ⟨row, hgrant, hlast, hprepare⟩ := hknows
      exact ⟨row, claimed, outcome, hgrant, hlast, hprepare, hwork _ hlast, hreport⟩
  · cases hmoved

/-- One step keeps the invariant, if the work comes to an outcome that it can come to. -/
theorem step_inv {l : WorkerCluster.Label} (hs : Inv d work clock s)
    (hwork : ∀ process outcome, l = .runTask process outcome → ∀ task,
      lastTask (s.loops process).calls = some task → work process task outcome)
    (h : clusterStep d s l = some t) : Inv d work clock t := by
  cases clusterStep_move h with
  | @environment r response hother hserved =>
    obtain ⟨hg, hloops, hflights⟩ := serve_frame hserved
    have ht := serve_serverInv hs.server
      (fun process token taskTypes workerId lease hsender => by cases hsender) hserved
    refine hs.of_grown ht hg ?_ (fun i => .inr (congrFun hloops i)) ?_
    · rw [hflights]
      exact fun _ _ => .inl
    · refine settled_of_served hs.server hs.settled hserved ht rfl hg ?_
      intro id token outcome hr
      rw [hr] at hother
      cases outcome <;> cases hother
  | served hcall hasked hserved hanswer hheard =>
    exact served_inv hs hcall hasked hserved hanswer hheard
  | unserved hbare hheard => exact unserved_inv hs hbare hheard
  | delayed hcall hbare hheard => exact delayed_inv hs hcall hbare hheard
  | arrived hfound hasked hserved => exact arrived_inv hs hfound hasked hserved
  | @refused index now later claimToken hgone =>
    subst hgone
    have hgrows : Grows s { s with inFlight := s.inFlight.eraseIdx index } :=
      ⟨fun _ h => h, fun _ => List.prefix_rfl⟩
    exact hs.of_grown (hs.server.of_inFlight _) hgrows
      (fun _ _ hmem => .inl (List.mem_of_mem_eraseIdx hmem)) (fun _ => .inr rfl)
      fun id task hget hst => (hs.settled id task hget hst).mono hgrows
  | @maintained process raises loop hmoved hresult =>
    subst hresult
    simp only [WorkerLoop.step] at hmoved
    split at hmoved
    · cases hmoved
      refine setLoop_inv hs rfl ?_
      simp only [Knows, setLoop_self]
      cases raises <;> trivial
    · cases hmoved
  | @worked process outcome loop hmoved hresult =>
    subst hresult
    exact worked_inv hs hmoved (hwork process outcome rfl)
  | @killed process hresult =>
    subst hresult
    refine setLoop_inv hs rfl ?_
    simp only [Knows, setLoop_self]

/-- What a process does with a task comes to an outcome that `work` allows. -/
def Works (work : ℕ → Json → WorkerLoop.Outcome → Prop) (s : Cluster) :
    WorkerCluster.Label → Prop
  | .runTask process outcome => ∀ task, lastTask (s.loops process).calls = some task →
      work process task outcome
  | _ => True

theorem begin_inv : Inv d work clock (begin clock) where
  server := {
    run := rfl
    fresh := ⟨List.nodup_nil, List.nodup_nil⟩
    drawn := fun sender row h => by cases h
    unique := fun g h => by cases h
    holders := fun process row h => by cases h
    held := fun id task h => by cases h }
  flights := fun process report h => by cases h
  knows := fun process => trivial
  settled := fun id task h => by cases h

theorem run_inv {ls : List WorkerCluster.Label}
    (hrun : exec (clusterStep d) (begin clock) ls = some s)
    (hwork : Along (clusterStep d) (Works work) (begin clock) ls) : Inv d work clock s := by
  refine invariant_along ?_ begin_inv hwork hrun
  intro s l t hs hl hstep
  refine step_inv hs ?_ hstep
  rintro process outcome rfl
  exact hl

/-- In every run of the system, whatever becomes of the calls of the workers and whatever else
the server is asked, one request after the other and no outcome among it, each stored outcome
is the report that the process named by the row has made of its own work on this task. -/
theorem outcomes_authentic (d : Deployment) (work : ℕ → Json → WorkerLoop.Outcome → Prop)
    (clock : Time) (ls : List WorkerCluster.Label) (s : Cluster)
    (hrun : exec (clusterStep d) (begin clock) ls = some s)
    (hwork : Along (clusterStep d) (Works work) (begin clock) ls) :
    ∀ task ∈ s.server.db.tasks.rows, Settled task → Authentic d work s task :=
  fun task ht => (run_inv hrun hwork).settled task.id task (Table.get_of_mem ht)

/-- Two machines that can show and send everything. -/
def twoWorkers : Deployment where
  settings := {}
  jsonb := fun _ => true
  env := {}
  config process := ⟨if process = 0 then "worker-1" else "worker-2", ["text_generation"]⟩
  isoformat _ := "2025-01-01T00:00:00+00:00"

/-- The first worker gives up a claim that the server handles later, so that the task waits
for the lease; the second one works on it and never hears that its report has arrived. -/
def lostAnswers : List WorkerCluster.Label :=
  [.request ⟨0, 1, .submitTask "a" "text_generation" (.object []) (some 1) none⟩,
    .call 0 (.delayed .networkError),
    .arrive 0 2 2 "token-1",
    .call 1 (.answered (minutes 2) (minutes 2) "token-2"),
    .runTask 1 (.result (.object [("text", .string "ready")])),
    .call 1 (.delayed .networkError),
    .arrive 0 (minutes 3) (minutes 3) "unused"]

/-- Every process answers every task alike. -/
def readyWork (_ : ℕ) (_ : Json) (outcome : WorkerLoop.Outcome) : Prop :=
  outcome = .result (.object [("text", .string "ready")])

theorem outcomes_authentic_lostAnswers :
    ∃ s task, exec (clusterStep twoWorkers) (begin 0) lostAnswers = some s ∧
      s.server.db.tasks.get "a" = some task ∧ task.status = .done ∧
      task.claimedBy = some "worker-2" ∧ Authentic twoWorkers readyWork s task := by
  have hworks : ∀ l ∈ lostAnswers, ∀ s, Works readyWork s l := by
    intro l hl s
    simp only [lostAnswers, List.mem_cons, List.not_mem_nil, or_false] at hl
    rcases hl with rfl | rfl | rfl | rfl | rfl | rfl | rfl
    all_goals first | trivial | exact fun _ _ => rfl
  refine ⟨_, _, rfl, rfl, rfl, rfl, ?_⟩
  exact outcomes_authentic twoWorkers readyWork 0 lostAnswers _ rfl (Along.of_forall hworks) _
    List.mem_cons_self (.inl rfl)

end Processes
end TaskQueue.ClusterOutcomes

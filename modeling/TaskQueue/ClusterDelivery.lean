import TaskQueue.ClusterOutcomes
import TaskQueue.OneUseTokens

/-!
# What becomes of a report

Each claim token is used for one report at most, so a report that reaches the server is
refused only if its claim was taken back after the lease had lapsed, or the retention job
has deleted the row. A report that is accepted is the outcome of the task from then on.
-/

namespace TaskQueue.ClusterDelivery
open KeyedTables TaskService SerialRequests LeaseRefinement SettledTasks WorkerLoop
open WorkerCluster ClusterOutcomes OneUseTokens StepRuns ClaimLifecycle
open OutcomeFencing (Settled)
open ReadCommittedRequests (RowEvent Lapsed)
open ReadCommittedSteps (under_phase_iff)

section Requests
variable {Doc : Type} [EmptyCollection Doc] {cfg : Settings} {clock : Time}
  {rs : List (Timed Doc)} {s : Served Doc} {id : TaskId}

/-- A task is settled in its history by an outcome that the run has asked for. -/
theorem request_of_settled (hrun : exec (step cfg) (start clock) rs = some s)
    {token : Option String} (h : .settled token ∈ historyOf cfg id (start clock) rs) :
    ∃ r ∈ rs, ∃ claimToken outcome, token = some claimToken ∧
      r.request = outcomeRequest id claimToken outcome := by
  revert h
  refine invariant_with_past (I := fun rs _ => .settled token ∈ historyOf cfg id (start clock) rs →
    ∃ r ∈ rs, ∃ claimToken outcome, token = some claimToken ∧
      r.request = outcomeRequest id claimToken outcome) (fun h => by cases h) ?_ hrun
  intro ks m r n hks ih hr hmem
  rw [historyOf_concat hks hr] at hmem
  rcases List.mem_append.1 hmem with hmem | hmem
  · obtain ⟨q, hq, hrest⟩ := ih hmem
    exact ⟨q, List.mem_append_left _ hq, hrest⟩
  · refine ⟨r, by simp, ?_⟩
    cases hg : m.db.tasks.get id with
    | none =>
      rcases handle_absent cfg r hg with
        ⟨hes, -⟩ | ⟨_, _, _, _, _, -, -, hes, -⟩ <;> rw [hes] at hmem
      · cases hmem
      · simp at hmem
    | some task =>
      have hmove := handle_move cfg r hg
      have hid := Table.key_of_get hg
      generalize eventsOf cfg id m.db r = es at hmove hmem
      generalize (handle cfg m.db r).1.tasks.get id = out at hmove
      cases hmove with
      | @settle claimToken outcome request claimed htoken =>
        refine ⟨claimToken, outcome, ?_, hid ▸ request⟩
        simpa using hmem
      | _ => simp [claimEvent] at hmem

/-- A task with a history is stored, or the retention job has run. -/
theorem stored_or_deleted (hrun : exec (step cfg) (start clock) rs = some s)
    (h : historyOf cfg id (start clock) rs ≠ []) :
    (∃ task, s.db.tasks.get id = some task) ∨ ∃ r ∈ rs, r.request = .cleanupTasks := by
  revert h
  refine invariant_with_past (I := fun rs s => historyOf cfg id (start clock) rs ≠ [] →
    (∃ task, s.db.tasks.get id = some task) ∨ ∃ r ∈ rs, r.request = .cleanupTasks)
    (fun h => absurd rfl h) ?_ hrun
  intro ks m r n hks ih hr hne
  obtain ⟨-, -, rfl⟩ := SerialRequests.step_inv cfg hr
  rw [historyOf_concat hks hr] at hne
  cases hg : m.db.tasks.get id with
  | none =>
    rcases handle_absent cfg r hg with
      ⟨hes, -⟩ | ⟨_, _, _, _, task, -, -, -, hadded⟩
    · rw [hes, List.append_nil] at hne
      rcases ih hne with ⟨task, htask⟩ | ⟨q, hq, hc⟩
      · cases hg.symm.trans htask
      · exact .inr ⟨q, List.mem_append_left _ hq, hc⟩
    · exact .inl ⟨task, hadded⟩
  | some task =>
    rcases stored_move (handle_move cfg r hg) with hstored | hc
    · exact .inl hstored
    · exact .inr ⟨r, by simp, hc⟩

/-- The claim that hands out a row is an event of its task. -/
theorem claimEvent_of_handed {db : Db Doc} {r : Timed Doc} {row : Task Doc}
    (h : row ∈ handedRow (handle cfg db r).2) : claimEvent row ∈ eventsOf cfg row.id db r := by
  obtain ⟨claimToken, taskTypes, workerId, leaseMinutes, hr, -⟩ := handedRow_claimed h
  cases hresponse : (handle cfg db r).2 with
  | claimed found =>
    rw [hresponse] at h
    cases found with
    | none => cases h
    | some found =>
      cases List.mem_singleton.1 h
      simp only [eventsOf, hr, hresponse, claimEvents, if_true]
      exact List.mem_append_right _ List.mem_cons_self
  | _ => rw [hresponse] at h; cases h

/-- The claim under this token met renewals only until a sweep found its lease lapsed. -/
def TakenBack (history : List RowEvent) (claimToken : String) : Prop :=
  ∃ before holder lease between seen now after,
    history = before ++ .claimed holder (some claimToken) lease ::
      (between ++ .reclaimed seen now :: after) ∧
    (∀ e ∈ between, e.isRenewal) ∧ Lapsed seen now

/-- What the server makes of an outcome after the requests `before`: it stores it, or the
row is gone, or the claim was taken back. -/
def Judged (cfg : Settings) (clock : Time) (before : List (Timed Doc)) (r : Timed Doc)
    (id : TaskId) (claimToken : String) (outcome : TaskService.Outcome Doc) : Prop :=
  ∃ m, exec (step cfg) (start clock) before = some m ∧
    ((∃ task, m.db.tasks.get id = some task ∧
        (handle cfg m.db r).2 = .task (settleRow outcome r.now task) ∧
        (handle cfg m.db r).1.tasks.get id = some (settleRow outcome r.now task)) ∨
      (m.db.tasks.get id = none ∧ ∃ q ∈ before, q.request = .cleanupTasks) ∨
      TakenBack (historyOf cfg id (start clock) before) claimToken)

/-- An outcome under the token of a claim that no outcome has used yet. -/
theorem judged_of_unused (hrun : exec (step cfg) (start clock) rs = some s)
    (hfresh : FreshDraws rs) {row : Task Doc} {claimToken : String}
    (hclaimed : claimEvent row ∈ historyOf cfg id (start clock) rs)
    (htoken : row.claimToken = some claimToken)
    (hunused : ∀ q ∈ rs, ∀ outcome, q.request ≠ outcomeRequest id claimToken outcome)
    {r : Timed Doc} {outcome : TaskService.Outcome Doc}
    (hr : r.request = outcomeRequest id claimToken outcome) :
    Judged cfg clock rs r id claimToken outcome := by
  refine ⟨s, hrun, ?_⟩
  cases hg : s.db.tasks.get id with
  | none =>
    rcases stored_or_deleted hrun (List.ne_nil_of_mem hclaimed) with ⟨task, htask⟩ | hdeleted
    · cases hg.symm.trans htask
    · exact .inr (.inl ⟨rfl, hdeleted⟩)
  | some task =>
    by_cases hheld : task.status = .claimed ∧ task.claimToken = some claimToken
    · have hsettle : settleTask r.now s.db.tasks id claimToken outcome =
          .ok (s.db.tasks.modify id (settleRow outcome r.now) (settleRow_id outcome r.now),
            settleRow outcome r.now task) :=
        settleTask_ok_iff.2 ⟨task, hg, hheld.1, hheld.2, rfl⟩
      refine .inl ⟨task, rfl, ?_⟩
      cases outcome with
      | complete result =>
        have hdone : completeTask r.now s.db.tasks id claimToken result = _ := hsettle
        simp only [handle, hr, outcomeRequest, hdone, Table.get_modify_self, hg, Option.map_some,
          and_self]
      | fail error =>
        have hdone : failTask r.now s.db.tasks id claimToken error = _ := hsettle
        simp only [handle, hr, outcomeRequest, hdone, Table.get_modify_self, hg, Option.map_some,
          and_self]
    · -- The row shows that more than renewals has come since the claim.
      refine .inr (.inr ?_)
      have htracked := run_tracked hrun hfresh id
      obtain ⟨before, after, hhistory⟩ := List.append_of_mem hclaimed
      have hlawful := htracked.lawful
      have hnodup := htracked.nodup
      have hphase := htracked.phase task hg
      rw [hhistory] at hlawful hnodup hphase
      obtain ⟨-, -, hafter⟩ := lawfulFrom_append.1 hlawful
      rw [after_append, after_cons, claimEvent, htoken] at hphase
      rw [claimEvent, htoken] at hafter
      have hlater : some claimToken ∉ tokensOf after := by
        rw [tokensOf_append, List.nodup_append] at hnodup
        have hn := hnodup.2.1
        simp only [tokensOf, List.filterMap_cons, claimEvent, Event.token?, htoken] at hn
        exact (List.nodup_cons.1 hn).1
      have hunder : Phase.Under (some claimToken)
          (next (ClaimLifecycle.after (.absent : ReadCommittedRequests.RowPhase) before)
            (.claimed row.claimedBy (some claimToken) row.leaseExpiresAt : RowEvent)) := rfl
      have hmore : ¬∀ e ∈ after, e.isRenewal := by
        rw [← under_iff_renewals hunder hlater, hphase, under_phase_iff]
        exact hheld
      rcases settled_or_reclaimed hafter hmore with
        hsettled | ⟨between, seen, now, rest, rfl, hbetween, hlapsed⟩
      · have hmem : .settled (some claimToken) ∈ historyOf cfg id (start clock) rs := by
          rw [hhistory]
          exact List.mem_append_right _ (List.mem_cons_of_mem _ hsettled)
        obtain ⟨q, hq, token, outcome', htok, hrequest⟩ := request_of_settled hrun hmem
        cases htok
        exact absurd hrequest (hunused q hq outcome')
      · refine ⟨before, row.claimedBy, row.leaseExpiresAt, between, seen, now, rest, ?_,
          hbetween, hlapsed⟩
        rw [hhistory, claimEvent, htoken]

end Requests

section Tokens

def Report.claimToken : Report → Json
  | .completeTask _ claimToken _ => claimToken
  | .failTask _ claimToken _ => claimToken

/-- The token that a process works or reports under. -/
def heldToken : WorkerLoop.Phase → Option Json
  | .working claimed => some claimed.claimToken
  | .reporting report => some (Report.claimToken report)
  | _ => none

def sentToken : Sent → Option Json
  | .claim => none
  | .report report => some (Report.claimToken report)

/-- The token that a request ends a task with. -/
def usedToken : Request Json → Option Json
  | .completeTask _ claimToken _ => some (.string claimToken)
  | .failTask _ claimToken _ => some (.string claimToken)
  | _ => none

/-- Where the claim tokens of a system are. -/
def tokens (s : Cluster) : Tokens ℕ Json where
  held process := heldToken (s.loops process).phase
  sent := s.inFlight.filterMap fun call => sentToken call.2
  used := s.log.filterMap fun r => usedToken r.request
  drawn := s.log.filterMap fun r => (drawn r.request).map Json.string

variable {d : Deployment} {clock : Time} {s m t : Cluster} {process : ℕ} {reply : Reply}

@[simp] theorem usedToken_outcome (id : TaskId) (claimToken : String)
    (outcome : TaskService.Outcome Json) :
    usedToken (outcomeRequest id claimToken outcome) = some (.string claimToken) := by
  cases outcome <;> rfl

@[simp] theorem drawn_outcome (id : TaskId) (claimToken : String)
    (outcome : TaskService.Outcome Json) :
    drawn (outcomeRequest id claimToken outcome) = none := by
  cases outcome <;> rfl

@[simp] theorem claimToken_reportFor (id : TaskId) (claimToken : String)
    (outcome : TaskService.Outcome Json) :
    Report.claimToken (reportFor id claimToken outcome) = .string claimToken := by
  cases outcome <;> rfl

/-- A report is made under the token of its claim. -/
theorem claimToken_of_reportOf {env : Env} {claimed : ClaimedTask} {outcome : WorkerLoop.Outcome}
    {report : Report} (h : reportOf env claimed outcome = some report) :
    Report.claimToken report = claimed.claimToken := by
  cases outcome with
  | result result => cases h; rfl
  | raised text =>
    obtain ⟨error, -, rfl⟩ := Option.map_eq_some_iff.1 h
    rfl

/-- A request that a call of a process is read as. -/
theorem request_cases {config : Config} {token : String} {sent : Sent} {request : Request Json}
    (h : asked config token sent = some request) :
    (sent = .claim ∧ drawn request = some token ∧ usedToken request = none ∧
      ∃ taskTypes, request = .claimNext token taskTypes config.workerId none) ∨
    ∃ id claimToken outcome, request = outcomeRequest id claimToken outcome ∧
      sent = .report (reportFor id claimToken outcome) := by
  unfold asked at h
  split at h
  · cases h
    exact .inl ⟨rfl, rfl, rfl, _, rfl⟩
  · rename_i taskId claimToken fields
    cases h
    exact .inr ⟨taskId, claimToken, .complete (.object fields), rfl, rfl⟩
  · rename_i taskId claimToken error
    cases h
    exact .inr ⟨taskId, claimToken, .fail error, rfl, rfl⟩
  · cases h

/-- A process that hears the answer to its call holds no token, or it was given a task. -/
theorem heldToken_of_heard (h : hear d s process reply = some t) :
    heldToken (t.loops process).phase = none ∨
    ∃ task claimed, (s.loops process).phase = .polling ∧
      claimNextTask d.env reply = .ok (some task) ∧ prepare d.env task = some claimed ∧
      heldToken (t.loops process).phase = some claimed.claimToken := by
  obtain ⟨loop, hloop, rfl⟩ := hear_inv h
  rw [setLoop_self]
  cases hphase : (s.loops process).phase with
  | polling =>
    simp only [hphase, answerLabel, WorkerLoop.step] at hloop
    cases htask : claimNextTask d.env reply with
    | error e =>
      simp only [htask] at hloop
      cases hloop
      exact .inl rfl
    | ok found =>
      cases found with
      | none =>
        simp only [htask] at hloop
        cases hloop
        exact .inl rfl
      | some task =>
        simp only [htask] at hloop
        cases hprepare : prepare d.env task with
        | none =>
          simp only [hprepare] at hloop
          cases hloop
          exact .inl rfl
        | some claimed =>
          simp only [hprepare] at hloop
          cases hloop
          exact .inr ⟨task, claimed, rfl, rfl, hprepare, rfl⟩
  | reporting report =>
    simp only [hphase, answerLabel, WorkerLoop.step] at hloop
    cases hloop
    cases reportReturns d.env report reply <;> exact .inl rfl
  | _ => simp [hphase, answerLabel, WorkerLoop.step] at hloop

theorem hear_frame (h : hear d s process reply = some t) :
    (∀ i, i ≠ process → t.loops i = s.loops i) ∧ t.log = s.log ∧ t.inFlight = s.inFlight ∧
      t.grants = s.grants ∧ t.server = s.server := by
  obtain ⟨loop, -, rfl⟩ := hear_inv h
  exact ⟨fun i hi => setLoop_of_ne s hi loop, rfl, rfl, rfl, rfl⟩

theorem heldToken_of_no_task (h : hear d s process reply = some t)
    (hnone : ∀ task, claimNextTask d.env reply ≠ .ok (some task)) :
    heldToken (t.loops process).phase = none := by
  rcases heldToken_of_heard h with hheld | ⟨task, -, -, htask, -⟩
  · exact hheld
  · exact absurd htask (hnone task)

/-- A process that is given no task loses its token. -/
theorem oneUse_of_heard (hs : OneUse (tokens s)) (h : hear d s process reply = some t)
    (hnone : heldToken (t.loops process).phase = none) : OneUse (tokens t) := by
  obtain ⟨hothers, hlog, hflights, -, -⟩ := hear_frame h
  refine hs.lose ?_ ?_ ?_ ?_ ?_
  · intro i token hi
    by_cases hip : i = process
    · subst hip
      cases hnone.symm.trans hi
    · simpa only [tokens, hothers i hip] using hi
  · simp only [tokens, hflights, List.Sublist.refl]
  · simp only [tokens, hlog, List.Subset.refl]
  · simp only [tokens, hlog, List.Subset.refl]
  · simp only [tokens, hlog]
    exact fun token hu => hs.usedDrawn token hu

theorem serve_log {sender : Option ℕ} {r : Timed Json} {response : Response Json}
    (h : serve d s sender r = some (t, response)) : t.log = s.log ++ [r] := by
  obtain ⟨-, server, -, -, rfl⟩ := serve_inv h
  rfl

/-- The server handles a request that ends no task. -/
theorem oneUse_of_other {sender : Option ℕ} {r : Timed Json} {response : Response Json}
    (hs : OneUse (tokens s)) (h : serve d s sender r = some (t, response))
    (hother : usedToken r.request = none) : OneUse (tokens t) := by
  obtain ⟨-, hloops, hflights⟩ := serve_frame h
  have hlog := serve_log h
  have hused : (tokens t).used = (tokens s).used := by
    simp [tokens, hlog, hother]
  have hdrawn : (tokens s).drawn ⊆ (tokens t).drawn := by
    simp only [tokens, hlog, List.filterMap_append]
    exact List.subset_append_left _ _
  refine hs.lose ?_ ?_ (by rw [hused]; exact List.Subset.refl _) hdrawn ?_
  · intro i token hi
    simpa only [tokens, hloops] using hi
  · simp only [tokens, hflights, List.Sublist.refl]
  · rw [hused]
    exact fun token hu => hdrawn (hs.usedDrawn token hu)

theorem usedToken_of_other {r : Timed Json} (h : endsTask r.request = false) :
    usedToken r.request = none := by
  cases hr : r.request <;> rw [hr] at h <;> first | rfl | cases h

/-- The call of a process that reports under a token. -/
theorem held_of_report {report : Report}
    (hcall : sentOf d.env (s.loops process).phase = some (.report report)) :
    (s.loops process).phase = .reporting report := by
  cases hphase : (s.loops process).phase with
  | reporting own =>
    rw [hphase, sentOf] at hcall
    split_ifs at hcall
    cases hcall
    rfl
  | _ => rw [hphase] at hcall; cases hcall

/-- A process that makes no call is given no token. -/
theorem oneUse_setLoop {loop : Loop} (hs : OneUse (tokens s))
    (hheld : ∀ token, heldToken loop.phase = some token →
      heldToken (s.loops process).phase = some token) :
    OneUse (tokens (setLoop s process loop)) := by
  refine hs.lose ?_ (List.Sublist.refl _) (List.Subset.refl _) (List.Subset.refl _) hs.usedDrawn
  intro i token hi
  by_cases hip : i = process
  · subst hip
    simp only [tokens, setLoop_self] at hi
    exact hheld token hi
  · simpa only [tokens, setLoop_of_ne s hip] using hi

section Calls
variable {m : Cluster} {now later : Time} {request : Request Json} {response : Response Json}

/-- The task that a process hears of was handed out just now, under the token just drawn. -/
theorem oneUse_of_claimed {claimToken : String} {taskTypes : List String}
    (hs : OneUse (tokens s)) (hdrawn : drawn request = some claimToken)
    (hother : usedToken request = none)
    (hrequest : request = .claimNext claimToken taskTypes (d.config process).workerId none)
    (hserved : serve d s (some process) ⟨now, later, request⟩ = some (m, response))
    (hanswer : reply = replyTo d.isoformat response ∨ Reply.bare reply = true)
    (hheard : hear d m process reply = some t) : OneUse (tokens t) := by
  obtain ⟨-, hloops, hflights⟩ := serve_frame hserved
  obtain ⟨hothers, hlog, hflights', -, -⟩ := hear_frame hheard
  rcases heldToken_of_heard hheard with hnone | ⟨task, claimed, -, htask, hprepare, hheld⟩
  · exact oneUse_of_heard (oneUse_of_other hs hserved hother) hheard hnone
  rcases hanswer with rfl | hbare
  · obtain ⟨hfresh, server, -, hresponse, -⟩ := serve_inv hserved
    have hlogs : t.log = s.log ++ [⟨now, later, request⟩] := hlog.trans (serve_log hserved)
    subst hrequest
    rw [hresponse] at htask
    obtain ⟨row, hrow, rfl⟩ := task_of_claimed rfl htask
    obtain ⟨token', _, _, _, hr, htoken, -⟩ := handedRow_claimed hrow
    cases hr
    have hclaimed : claimed.claimToken = .string claimToken := by
      rw [prepare_claimDocument hprepare, htoken]
      rfl
    have hnew := hfresh.drawn_new hdrawn
    refine hs.gain (fun j hj => ?_) (hheld.trans (congrArg some hclaimed)) ?_ ?_ ?_ ?_ ?_
    · simp only [tokens, hothers j hj, hloops]
    · intro hmem
      obtain ⟨r, hr, hdrawn'⟩ := List.mem_filterMap.1 hmem
      obtain ⟨k, hk, hk'⟩ := Option.map_eq_some_iff.1 hdrawn'
      cases hk'
      exact hnew (List.mem_filterMap.2 ⟨r, hr, hk⟩)
    · simp only [tokens, hflights', hflights]
    · simp [tokens, hlogs, hother]
    · simp only [tokens, hlogs, List.filterMap_append]
      exact List.subset_append_left _ _
    · simp [tokens, hlogs, drawn]
  · exact absurd htask (no_task_of_bare hbare task)

/-- The server handles the report of a process, which then has no token. -/
theorem oneUse_of_reported {id token : String} {outcome : TaskService.Outcome Json}
    (hs : OneUse (tokens s))
    (hcall : sentOf d.env (s.loops process).phase =
      some (.report (reportFor id token outcome)))
    (hserved : serve d s (some process) ⟨now, later, outcomeRequest id token outcome⟩ =
      some (m, response))
    (hheard : hear d m process reply = some t) : OneUse (tokens t) := by
  obtain ⟨-, hloops, hflights⟩ := serve_frame hserved
  obtain ⟨hothers, hlog, hflights', -, -⟩ := hear_frame hheard
  have hlogs := hlog.trans (serve_log hserved)
  have hphase := held_of_report hcall
  refine hs.use process (.string token) ?_ (fun j hj => ?_) ?_ ?_ ?_ ?_
  · simp only [tokens, hphase, heldToken, claimToken_reportFor]
  · simp only [tokens, hothers j hj, hloops]
  · rcases heldToken_of_heard hheard with hnone | ⟨task, claimed, hpolling, -⟩
    · exact hnone
    · rw [hloops, hphase] at hpolling
      cases hpolling
  · simp only [tokens, hflights', hflights]
  · simp [tokens, hlogs]
  · simp [tokens, hlogs]

/-- A process gives up its call, which is still on its way. -/
theorem oneUse_of_delayed {sent : Sent} (hs : OneUse (tokens s))
    (hcall : sentOf d.env (s.loops process).phase = some sent) (hbare : Reply.bare reply = true)
    (hheard : hear d { s with inFlight := s.inFlight ++ [(process, sent)] } process reply =
      some t) : OneUse (tokens t) := by
  have hnone := heldToken_of_no_task hheard fun task => no_task_of_bare hbare task
  cases sent with
  | claim =>
    refine oneUse_of_heard (s := { s with inFlight := s.inFlight ++ [(process, .claim)] })
      (hs.lose (fun i token hi => hi) ?_ ?_ ?_ hs.usedDrawn) hheard hnone
    · simp [tokens, sentToken]
    · exact List.Subset.refl _
    · exact List.Subset.refl _
  | report report =>
    have hphase := held_of_report hcall
    obtain ⟨hothers, hlog, hflights, -, -⟩ := hear_frame hheard
    refine hs.send process (Report.claimToken report) ?_ ?_ hnone ?_ ?_ ?_
    · simp only [tokens, hphase, heldToken]
    · intro j hj
      simp only [tokens, hothers j hj]
    · simp [tokens, hflights, sentToken]
    · simp only [tokens, hlog]
    · simp only [tokens, hlog]

/-- The server handles a call that its process has given up. -/
theorem oneUse_of_arrived {index : ℕ} {sent : Sent} {claimToken : String}
    (hs : OneUse (tokens s)) (hfound : s.inFlight[index]? = some (process, sent))
    (hasked : requestOf d.jsonb (d.config process) claimToken sent = some request)
    (hserved : serve d { s with inFlight := s.inFlight.eraseIdx index } (some process)
      ⟨now, later, request⟩ = some (t, response)) : OneUse (tokens t) := by
  obtain ⟨-, hloops, hflights⟩ := serve_frame hserved
  rcases request_cases (asked_of_requestOf hasked) with
    ⟨-, -, hother, -⟩ | ⟨id, token, outcome, rfl, rfl⟩
  · refine oneUse_of_other (s := { s with inFlight := s.inFlight.eraseIdx index })
      (hs.lose (fun i token hi => hi) ?_ ?_ ?_ hs.usedDrawn) hserved hother
    · exact (List.eraseIdx_sublist _ _).filterMap _
    · exact List.Subset.refl _
    · exact List.Subset.refl _
  · obtain ⟨hlt, hget⟩ := List.getElem?_eq_some_iff.1 hfound
    have hperm : s.inFlight.Perm
        ((process, .report (reportFor id token outcome)) :: s.inFlight.eraseIdx index) := by
      rw [← hget]
      exact (List.getElem_cons_eraseIdx_perm hlt).symm
    refine hs.arrive (.string token) ?_ ?_ ?_ ?_
    · simp only [tokens, hloops]
    · have hsent := hperm.filterMap fun call => sentToken call.2
      simpa only [tokens, hflights, List.filterMap_cons, sentToken, claimToken_reportFor]
        using hsent
    · simp [tokens, serve_log hserved]
    · simp [tokens, serve_log hserved]

end Calls

/-- One step uses no token twice. -/
theorem step_oneUse {l : WorkerCluster.Label} (hs : OneUse (tokens s))
    (h : clusterStep d s l = some t) : OneUse (tokens t) := by
  cases clusterStep_move h with
  | environment hother hserved =>
    exact oneUse_of_other hs hserved (usedToken_of_other hother)
  | served hcall hasked hserved hanswer hheard =>
    rcases request_cases (asked_of_requestOf hasked) with
      ⟨rfl, hdrawn, hother, taskTypes, hrequest⟩ | ⟨id, token, outcome, rfl, rfl⟩
    · exact oneUse_of_claimed hs hdrawn hother hrequest hserved hanswer hheard
    · exact oneUse_of_reported hs hcall hserved hheard
  | unserved hbare hheard =>
    exact oneUse_of_heard hs hheard
      (heldToken_of_no_task hheard fun task => no_task_of_bare hbare task)
  | delayed hcall hbare hheard => exact oneUse_of_delayed hs hcall hbare hheard
  | arrived hfound hasked hserved => exact oneUse_of_arrived hs hfound hasked hserved
  | refused hgone =>
    subst hgone
    refine hs.lose (fun i token hi => hi) ?_ (List.Subset.refl _) (List.Subset.refl _)
      hs.usedDrawn
    exact (List.eraseIdx_sublist _ _).filterMap _
  | @maintained process raises loop hmoved hresult =>
    subst hresult
    simp only [WorkerLoop.step] at hmoved
    split at hmoved <;> cases hmoved
    refine oneUse_setLoop hs fun token htoken => ?_
    cases raises <;> cases htoken
  | @worked process outcome loop hmoved hresult =>
    subst hresult
    simp only [WorkerLoop.step] at hmoved
    split at hmoved
    · rename_i claimed hphase
      split at hmoved <;> cases hmoved
      · exact oneUse_setLoop hs fun token htoken => by cases htoken
      · rename_i report hreport
        refine oneUse_setLoop hs fun token htoken => ?_
        rw [hphase, ← htoken]
        exact congrArg some (claimToken_of_reportOf hreport).symm
    · cases hmoved
  | @killed process hresult =>
    subst hresult
    exact oneUse_setLoop hs fun token htoken => by cases htoken

end Tokens

section Runs
variable {d : Deployment} {work : ℕ → Json → WorkerLoop.Outcome → Prop} {clock : Time}
  {s t : Cluster}

/-- What a process asks the server to store is about a row that was handed to it, under a
token that nothing was stored with. -/
def Fresh (s : Cluster) (r : Timed Json) : Prop :=
  ∀ id claimToken outcome, r.request = outcomeRequest id claimToken outcome →
    Json.string claimToken ∉ (tokens s).used ∧
    ∃ sender row, (sender, row) ∈ s.grants ∧ row.id = id ∧ row.claimToken = some claimToken

/-- A step leaves the log and the grants as they are, or one request is added. -/
theorem step_log {l : WorkerCluster.Label} (hs : Inv d work clock s) (ho : OneUse (tokens s))
    (h : clusterStep d s l = some t) :
    (t.log = s.log ∧ t.grants = s.grants) ∨
    ∃ sender r, t.log = s.log ++ [r] ∧ Fresh s r ∧
      (∃ server, step d.settings s.server r = some server) ∧
      t.grants = s.grants ++
        (handedRow (handle d.settings s.server.db r).2).map fun row => (sender, row) := by
  cases clusterStep_move h with
  | @environment r response hother hserved =>
    obtain ⟨-, server, hserver, rfl, rfl⟩ := serve_inv hserved
    refine .inr ⟨none, r, rfl, ?_, ⟨server, hserver⟩, rfl⟩
    intro id token outcome hr
    rw [hr] at hother
    cases outcome <;> cases hother
  | @served process fate sent claimToken request now later m response reply hcall hasked hserved
      hanswer hheard =>
    obtain ⟨-, hlog, -, hgrants, -⟩ := hear_frame hheard
    obtain ⟨-, server, hserver, rfl, rfl⟩ := serve_inv hserved
    refine .inr ⟨some process, _, hlog, ?_, ⟨server, hserver⟩, hgrants⟩
    rintro id token outcome rfl
    cases sent_of_outcome (asked_of_requestOf hasked)
    have hphase := held_of_report hcall
    have hknows := hs.knows process
    simp only [Knows, hphase] at hknows
    obtain ⟨row, claimed, own, hgrant, -, hprepare, -, hreport⟩ := hknows
    obtain ⟨hid, htoken⟩ := names_of_reportOf hprepare hreport
    refine ⟨ho.heldUnused process _ ?_, some process, row, hgrant, hid, htoken⟩
    simp only [tokens, hphase, heldToken, claimToken_reportFor]
  | unserved hbare hheard =>
    obtain ⟨-, hlog, -, hgrants, -⟩ := hear_frame hheard
    exact .inl ⟨hlog, hgrants⟩
  | delayed hcall hbare hheard =>
    obtain ⟨-, hlog, -, hgrants, -⟩ := hear_frame hheard
    exact .inl ⟨hlog, hgrants⟩
  | @arrived index now later process sent claimToken request response hfound hasked hserved =>
    obtain ⟨-, server, hserver, rfl, rfl⟩ := serve_inv hserved
    refine .inr ⟨some process, _, rfl, ?_, ⟨server, hserver⟩, rfl⟩
    rintro id token outcome rfl
    cases sent_of_outcome (asked_of_requestOf hasked)
    have hmem := List.mem_of_getElem? hfound
    obtain ⟨row, hrow⟩ := hs.flights process _ hmem
    obtain ⟨hid, htoken⟩ := hrow.names
    refine ⟨ho.sentUnused _ ?_, some process, row, hrow.granted, hid, htoken⟩
    exact List.mem_filterMap.2 ⟨_, hmem, by simp [sentToken]⟩
  | refused hgone => exact .inl (by subst hgone; exact ⟨rfl, rfl⟩)
  | maintained hmoved hresult => exact .inl (by subst hresult; exact ⟨rfl, rfl⟩)
  | worked hmoved hresult => exact .inl (by subst hresult; exact ⟨rfl, rfl⟩)
  | killed hresult => exact .inl (by subst hresult; exact ⟨rfl, rfl⟩)

/-- What every run keeps about the reports that the server has handled. -/
structure DeliveryInv (d : Deployment) (work : ℕ → Json → WorkerLoop.Outcome → Prop)
    (clock : Time) (s : Cluster) : Prop where
  inv : Inv d work clock s
  oneUse : OneUse (tokens s)
  recorded : ∀ sender row, (sender, row) ∈ s.grants →
    claimEvent row ∈ historyOf d.settings row.id (start clock) s.log
  judged : ∀ before r after id claimToken outcome, s.log = before ++ r :: after →
    r.request = outcomeRequest id claimToken outcome →
    Judged d.settings clock before r id claimToken outcome

theorem step_deliveryInv {l : WorkerCluster.Label} (hs : DeliveryInv d work clock s)
    (hwork : Works work s l) (h : clusterStep d s l = some t) : DeliveryInv d work clock t := by
  have hinv : Inv d work clock t := by
    refine ClusterOutcomes.step_inv hs.inv ?_ h
    rintro process outcome rfl
    exact hwork
  refine ⟨hinv, step_oneUse hs.oneUse h, ?_, ?_⟩
  all_goals rcases step_log hs.inv hs.oneUse h with
    ⟨hlog, hgrants⟩ | ⟨sender, r, hlog, hnew, ⟨server, hserver⟩, hgrants⟩
  · rw [hlog, hgrants]
    exact hs.recorded
  · rw [hlog, hgrants]
    intro sender' row hmem
    rw [historyOf_concat hs.inv.server.run hserver]
    rcases List.mem_append.1 hmem with hmem | hmem
    · exact List.mem_append_left _ (hs.recorded sender' row hmem)
    · obtain ⟨row', hrow, heq⟩ := List.mem_map.1 hmem
      cases heq
      exact List.mem_append_right _ (claimEvent_of_handed hrow)
  · rw [hlog]
    exact hs.judged
  · rw [hlog]
    intro before q after id claimToken outcome heq hq
    rcases LoopSurvival.snoc_eq_append_cons heq with ⟨-, rfl, rfl⟩ | ⟨after', -, hold⟩
    · obtain ⟨hunused, sender', row, hgrant, hid, htoken⟩ := hnew id claimToken outcome hq
      have hclaimed := hs.recorded sender' row hgrant
      rw [hid] at hclaimed
      refine judged_of_unused hs.inv.server.run hs.inv.server.fresh hclaimed htoken ?_ hq
      intro q hmem outcome' hrequest
      refine hunused (List.mem_filterMap.2 ⟨q, hmem, ?_⟩)
      rw [hrequest, usedToken_outcome]
    · exact hs.judged before q after' id claimToken outcome hold hq

/-- What becomes of a report that the server has handled: it is accepted, and stays stored
until the retention job deletes the row; or the retention job had deleted the row before; or
the claim had been taken back after its lease had lapsed. -/
def Delivered (d : Deployment) (clock : Time) (s : Cluster) (before after : List (Timed Json))
    (r : Timed Json) (id : TaskId) (claimToken : String)
    (outcome : TaskService.Outcome Json) : Prop :=
  ∃ m, exec (step d.settings) (start clock) before = some m ∧
    ((∃ task, (handle d.settings m.db r).2 = .task task ∧
        Carries (reportFor id claimToken outcome) task ∧
        (s.server.db.tasks.get id = some task ∨ DeletedAmong after task)) ∨
      (m.db.tasks.get id = none ∧ ∃ q ∈ before, q.request = .cleanupTasks) ∨
      TakenBack (historyOf d.settings id (start clock) before) claimToken)

/-- In every run of the system each report that its service was asked to store (its fields have
the types of the model, and the database takes its text or document) was accepted for good,
unless its claim had lapsed and been taken back, or its row had been deleted. -/
theorem reports_delivered (d : Deployment) (clock : Time) (ls : List WorkerCluster.Label)
    (s : Cluster) (hrun : exec (clusterStep d) (begin clock) ls = some s)
    (before after : List (Timed Json)) (r : Timed Json) (id : TaskId) (claimToken : String)
    (outcome : TaskService.Outcome Json) (hlog : s.log = before ++ r :: after)
    (hr : r.request = outcomeRequest id claimToken outcome) :
    Delivered d clock s before after r id claimToken outcome := by
  let work : ℕ → Json → WorkerLoop.Outcome → Prop := fun _ _ _ => True
  have hworks : Along (clusterStep d) (Works work) (begin clock) ls := by
    refine Along.of_forall fun l _ s => ?_
    cases l <;> first | trivial | exact fun _ _ => trivial
  have hbegin : DeliveryInv d work clock (begin clock) := by
    refine ⟨begin_inv, OneUse.empty, (fun sender row h => by cases h), ?_⟩
    intro before r after id token outcome h
    cases before <;> cases h
  have hinv : DeliveryInv d work clock s :=
    invariant_along (fun s l t hs hl hm => step_deliveryInv hs hl hm) hbegin hworks hrun
  obtain ⟨m, hm, hjudged⟩ := hinv.judged before r after id claimToken outcome hlog hr
  refine ⟨m, hm, ?_⟩
  rcases hjudged with ⟨task, hg, hresponse, hstored⟩ | hdeleted | hback
  · -- The rest of the log is a run of the server from the accepted outcome.
    have hserver := hinv.inv.server.run
    rw [hlog, exec_append hm] at hserver
    obtain ⟨n, hn, hrest⟩ := exec_cons_inv hserver
    obtain ⟨-, -, rfl⟩ := SerialRequests.step_inv d.settings hn
    have hsettled : Settled (settleRow outcome r.now task) := by
      cases outcome
      · exact .inl rfl
      · exact .inr rfl
    refine .inl ⟨_, hresponse, ?_, settled_kept d.settings hrest hstored hsettled⟩
    cases outcome <;> exact ⟨rfl, rfl⟩
  · exact .inr (.inl hdeleted)
  · exact .inr (.inr hback)

/-- The first worker reports after its claim was taken back, the second one is accepted. -/
def lateReport : List WorkerCluster.Label :=
  [.request ⟨0, 1, .submitTask "a" "text_generation" (.object []) (some 1) none⟩,
    .call 0 (.answered 2 2 "token-1"),
    .call 1 (.answered (minutes 2) (minutes 2) "token-2"),
    .runTask 0 (.result (.object [])),
    .call 0 (.answered (minutes 2) (minutes 2) "unused"),
    .runTask 1 (.raised (some "no memory")),
    .call 1 (.unanswered (minutes 3) (minutes 3) "unused" .networkError)]

theorem reports_delivered_lateReport :
    ∃ s before refused accepted, exec (clusterStep twoWorkers) (begin 0) lateReport = some s ∧
      s.log = before ++ [refused, accepted] ∧
      Delivered twoWorkers 0 s before [accepted] refused "a" "token-1" (.complete (.object [])) ∧
      Delivered twoWorkers 0 s (before ++ [refused]) [] accepted "a" "token-2"
        (.fail "no memory") := by
  refine ⟨_, [_, _, _], _, _, rfl, rfl, ?_, ?_⟩
  · exact reports_delivered twoWorkers 0 lateReport _ rfl _ _ _ _ _ _ rfl rfl
  · exact reports_delivered twoWorkers 0 lateReport _ rfl _ _ _ _ _ _ rfl rfl

end Runs
end TaskQueue.ClusterDelivery

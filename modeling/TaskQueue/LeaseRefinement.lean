import TaskQueue.ClaimNext
import TaskQueue.ReadCommittedSteps

/-!
# Requests served one at a time keep the lease protocol

`RowMove` says once what a request can do to the row of a task, guards included, and which
events of the lease protocol this is. A run of requests then gives every task a history, and
every history is one that the protocol allows.
-/

namespace TaskQueue.LeaseRefinement
open KeyedTables TaskService WorkerService SerialRequests ClaimNext StepRuns ClaimLifecycle
open ReadCommittedRequests (phase RowEvent RowPhase Lapsed)
open ReadCommittedSteps

variable {Json : Type}

/-- The request that ends a task. -/
def outcomeRequest (taskId : TaskId) (claimToken : String) : Outcome Json → Request Json
  | .complete result => .completeTask taskId claimToken result
  | .fail error => .failTask taskId claimToken error

/-- The claim that a row records. -/
def claimEvent (task : Task Json) : RowEvent :=
  .claimed task.claimedBy task.claimToken task.leaseExpiresAt

/-- What one request can do to the row of a task, with the events that it is. -/
inductive RowMove (r : Timed Json) (task : Task Json) :
    List RowEvent → Option (Task Json) → Prop
  | stay : RowMove r task [] (some task)
  | sweep {claimToken taskTypes workerId leaseMinutes}
      (request : r.request = .claimNext claimToken taskTypes workerId leaseMinutes)
      (expired : Expired taskTypes r.now task) :
      RowMove r task [.reclaimed task.leaseExpiresAt r.now] (some (requeueRow task))
  | claim {claimToken taskTypes workerId leaseMinutes}
      (request : r.request = .claimNext claimToken taskTypes workerId leaseMinutes)
      (queued : task.status = .queued) (listed : task.taskType ∈ taskTypes) :
      RowMove r task [claimEvent (claimRow workerId claimToken r.now leaseMinutes task)]
        (some (claimRow workerId claimToken r.now leaseMinutes task))
  | reclaim {claimToken taskTypes workerId leaseMinutes}
      (request : r.request = .claimNext claimToken taskTypes workerId leaseMinutes)
      (expired : Expired taskTypes r.now task) :
      RowMove r task [.reclaimed task.leaseExpiresAt r.now,
          claimEvent (claimRow workerId claimToken r.now leaseMinutes task)]
        (some (claimRow workerId claimToken r.now leaseMinutes task))
  | settle {claimToken outcome} (request : r.request = outcomeRequest task.id claimToken outcome)
      (claimed : task.status = .claimed) (token : task.claimToken = some claimToken) :
      RowMove r task [.settled (some claimToken)] (some (settleRow outcome r.now task))
  | renew {req} (request : r.request = .heartbeat req) (named : req.currentTaskId = some task.id)
      (claimed : task.status = .claimed) (owned : task.claimedBy = some req.workerId)
      (token : task.claimToken = req.claimToken) :
      RowMove r task [.renewed (some (r.now + minutes activeLeaseMinutes))]
        (some (beatTask req r.now task))
  | delete (request : r.request = .cleanupTasks) (old : task.expiresAt < r.now) :
      RowMove r task [] none

namespace RowMove
variable {r : Timed Json} {task : Task Json} {es : List RowEvent} {out : Option (Task Json)}

/-- The protocol allows the events, and they lead to what the row says afterwards. -/
theorem lawful (h : RowMove r task es out) :
    LawfulFrom Lapsed (phase task) es ∧
      ∀ task', out = some task' → after (phase task) es = phase task' := by
  have claimed_phase (hs : task.status = .claimed) :
      phase task = .claimed task.claimedBy task.claimToken task.leaseExpiresAt := by
    simp [phase, hs]
  cases h with
  | stay => exact ⟨trivial, fun task' h => congrArg phase (Option.some.inj h)⟩
  | sweep request expired =>
    rw [claimed_phase expired.1]
    refine ⟨⟨⟨rfl, expired.2.2⟩, trivial⟩, ?_⟩
    rintro task' ⟨⟩
    rfl
  | claim request queued listed =>
    rw [show phase task = .queued by simp [phase, queued]]
    refine ⟨⟨trivial, trivial⟩, ?_⟩
    rintro task' ⟨⟩
    rfl
  | reclaim request expired =>
    rw [claimed_phase expired.1]
    refine ⟨⟨⟨rfl, expired.2.2⟩, trivial, trivial⟩, ?_⟩
    rintro task' ⟨⟩
    rfl
  | settle request claimed token =>
    rw [claimed_phase claimed]
    refine ⟨⟨token.symm, trivial⟩, ?_⟩
    rintro task' ⟨⟩
    exact (phase_settleRow task _ _ none).symm
  | renew request named claimed owned token =>
    refine ⟨⟨trivial, trivial⟩, ?_⟩
    rintro task' ⟨⟩
    exact (phase_beatTask task _ _).symm
  | delete request old =>
    refine ⟨trivial, ?_⟩
    rintro task' ⟨⟩

/-- A request brings a token into a history only by drawing it. -/
theorem tokens (h : RowMove r task es out) :
    tokensOf es = [] ∨ ∃ claimToken taskTypes workerId leaseMinutes,
      r.request = .claimNext claimToken taskTypes workerId leaseMinutes ∧
        tokensOf es = [some claimToken] := by
  cases h with
  | claim request queued listed => exact .inr ⟨_, _, _, _, request, rfl⟩
  | reclaim request expired => exact .inr ⟨_, _, _, _, request, rfl⟩
  | _ => exact .inl rfl

end RowMove

section Effects
variable [EmptyCollection Json] (cfg : Settings)

/-- What the sweep of a claim means for the row that it finds. -/
def sweepEvents (taskTypes : List String) (now : Time) : Option (Task Json) → List RowEvent
  | some task =>
    if leaseLapsed taskTypes now task then [.reclaimed task.leaseExpiresAt now] else []
  | none => []

/-- What the row that a claim returns means for a task. -/
def claimEvents (id : TaskId) : Option (Task Json) → List RowEvent
  | some row => if row.id = id then [claimEvent row] else []
  | none => []

/-- The events that a request is for a task, as its response shows them. -/
def eventsOf (id : TaskId) (db : Db Json) (r : Timed Json) : List RowEvent :=
  match r.request with
  | .submitTask newId .. => match (handle cfg db r).2 with
    | .task _ => if newId = id then [.submitted] else []
    | _ => []
  | .claimNext _ taskTypes _ _ => match (handle cfg db r).2 with
    | .claimed row => sweepEvents taskTypes r.now (db.tasks.get id) ++ claimEvents id row
    | _ => []
  | .completeTask taskId claimToken _ => match (handle cfg db r).2 with
    | .task _ => if taskId = id then [.settled (some claimToken)] else []
    | _ => []
  | .failTask taskId claimToken _ => match (handle cfg db r).2 with
    | .task _ => if taskId = id then [.settled (some claimToken)] else []
    | _ => []
  | .heartbeat req => match (handle cfg db r).2 with
    | .accepted => if req.currentTaskId = some id then
        [.renewed (some (r.now + minutes activeLeaseMinutes))] else []
    | _ => []
  | _ => []

variable {cfg} {db : Db Json} {r : Timed Json} {id : TaskId}

omit [EmptyCollection Json] in
theorem sweepEvents_of_expired {taskTypes : List String} {now : Time} {task : Task Json}
    (h : Expired taskTypes now task) :
    sweepEvents taskTypes now (some task) = [.reclaimed task.leaseExpiresAt now] :=
  if_pos (leaseLapsed_eq_true_iff.2 h)

omit [EmptyCollection Json] in
theorem sweepEvents_of_not_expired {taskTypes : List String} {now : Time} {task : Task Json}
    (h : ¬Expired taskTypes now task) : sweepEvents taskTypes now (some task) = [] :=
  if_neg fun hl => h (leaseLapsed_eq_true_iff.1 hl)

omit [EmptyCollection Json] in
/-- What a claim does to a row that is there. -/
theorem claimNext_move {claimToken workerId : String} {taskTypes : List String}
    {leaseMinutes : Option Int} {p : TaskTable Json × Option (Task Json)} {task : Task Json}
    (hrequest : r.request = .claimNext claimToken taskTypes workerId leaseMinutes)
    (hp : claimNext r.now claimToken db.tasks taskTypes workerId leaseMinutes = .ok p)
    (hg : db.tasks.get id = some task) :
    RowMove r task (sweepEvents taskTypes r.now (db.tasks.get id) ++ claimEvents id p.2)
      (p.1.get id) := by
  have hlease := (claimNext_ok_cases hp).1
  cases hc : candidate taskTypes (reclaim taskTypes r.now db.tasks) with
  | none =>
    cases (claimNext_of_none hlease hc).symm.trans hp
    have hnone := candidate_eq_none_iff.1 hc task (Table.mem_of_get hg)
    have hexpired : ¬Expired taskTypes r.now task := fun h => hnone (.inr h)
    rw [get_reclaim, hg, sweepEvents_of_not_expired hexpired, Option.map_some,
      swept_of_not_expired hexpired]
    exact .stay
  | some picked =>
    cases (claimNext_of_some hlease hc).symm.trans hp
    obtain ⟨oldest, hpicked, rfl, havailable, -⟩ := candidate_reclaim hc
    rw [swept_id] at hpicked
    simp only [Table.get_modify, get_reclaim, hg, Option.map_some, claimEvents, claimRow_id,
      swept_id]
    by_cases hid : id = oldest.id
    · cases hg.symm.trans (hid ▸ hpicked)
      rw [if_pos hid, if_pos hid.symm, claimRow_swept]
      by_cases hexpired : Expired taskTypes r.now task
      · rw [sweepEvents_of_expired hexpired]
        exact .reclaim hrequest hexpired
      · obtain ⟨hq, hlisted⟩ := havailable.resolve_right hexpired
        rw [sweepEvents_of_not_expired hexpired]
        exact .claim hrequest hq hlisted
    · rw [if_neg hid, if_neg (Ne.symm hid), List.append_nil]
      by_cases hexpired : Expired taskTypes r.now task
      · rw [sweepEvents_of_expired hexpired, swept_of_expired hexpired]
        exact .sweep hrequest hexpired
      · rw [sweepEvents_of_not_expired hexpired, swept_of_not_expired hexpired]
        exact .stay

omit [EmptyCollection Json] in
/-- What an outcome does to a row that is there. -/
theorem settleTask_move {taskId : TaskId} {claimToken : String} (outcome : Outcome Json)
    {p : TaskTable Json × Task Json} {task : Task Json}
    (hrequest : r.request = outcomeRequest taskId claimToken outcome)
    (hp : settleTask r.now db.tasks taskId claimToken outcome = .ok p)
    (hg : db.tasks.get id = some task) :
    RowMove r task (if taskId = id then [.settled (some claimToken)] else []) (p.1.get id) := by
  obtain ⟨found, hfound, hs, hk, rfl⟩ := settleTask_ok_iff.1 hp
  by_cases hid : taskId = id
  · subst hid
    cases hg.symm.trans hfound
    have hkey := Table.key_of_get hg
    rw [if_pos rfl, Table.get_modify_self, hg]
    exact .settle (hkey ▸ hrequest) hs hk
  · rw [if_neg hid, Table.get_modify_of_ne _ _ _ (Ne.symm hid), hg]
    exact .stay

omit [EmptyCollection Json] in
/-- What a heartbeat does to a row that is there. -/
theorem heartbeat_move {req : Heartbeat Json} {p : TaskTable Json × WorkerTable Json}
    {task : Task Json} (hrequest : r.request = .heartbeat req)
    (hp : heartbeat r.now db.tasks db.workers req = .ok p) (hg : db.tasks.get id = some task) :
    RowMove r task
      (if req.currentTaskId = some id then
        [.renewed (some (r.now + minutes activeLeaseMinutes))] else [])
      (p.1.get id) := by
  obtain ⟨hok, rfl⟩ := heartbeat_ok_iff.1 hp
  cases hnamed : req.currentTaskId with
  | none =>
    simp only [beatTasks, hnamed, hg, reduceCtorEq, if_false]
    exact .stay
  | some taskId =>
    simp only [beatTasks, hnamed, Option.some.injEq]
    by_cases hid : taskId = id
    · subst hid
      obtain ⟨found, hfound, hs, hb, hk⟩ :=
        checkTask_ok_iff.1 ((checkHeartbeat_ok_iff.1 hok).2 taskId hnamed)
      cases hg.symm.trans hfound
      have hkey := Table.key_of_get hg
      rw [if_pos rfl, Table.get_modify_self, hg]
      exact .renew hrequest (hkey ▸ hnamed) hs hb hk
    · rw [if_neg hid, Table.get_modify_of_ne _ _ _ (Ne.symm hid), hg]
      exact .stay

/-- One request moves each row in one of these ways. -/
theorem handle_move (cfg : Settings) (r : Timed Json) {task : Task Json}
    (hg : db.tasks.get id = some task) :
    RowMove r task (eventsOf cfg id db r) ((handle cfg db r).1.tasks.get id) := by
  obtain ⟨now, later, request⟩ := r
  cases request with
  | submitTask newId taskType payload leaseMinutes retentionHours =>
    cases hsub : submitTask cfg now later newId db.tasks taskType payload leaseMinutes
        retentionHours with
    | error e =>
      simp only [eventsOf, handle, hsub, hg]
      exact .stay
    | ok p =>
      obtain ⟨added, hrow, hi, rfl⟩ := submitTask_ok_iff.1 hsub
      obtain rfl := (queuedRow_ok hrow).1
      have hne : added.id ≠ id := by
        rintro rfl
        cases hi.symm.trans hg
      simp only [eventsOf, handle, hsub, Table.get_insertNew, if_neg hne, if_neg hne.symm, hg]
      exact .stay
  | claimNext claimToken taskTypes workerId leaseMinutes =>
    cases hclaim : claimNext now claimToken db.tasks taskTypes workerId leaseMinutes with
    | error e =>
      simp only [eventsOf, handle, hclaim, hg]
      exact .stay
    | ok p =>
      simp only [eventsOf, handle, hclaim]
      exact claimNext_move rfl hclaim hg
  | completeTask taskId claimToken result =>
    cases hsettle : completeTask now db.tasks taskId claimToken result with
    | error e =>
      simp only [eventsOf, handle, hsettle, hg]
      exact .stay
    | ok p =>
      simp only [eventsOf, handle, hsettle]
      exact settleTask_move (.complete result) rfl hsettle hg
  | failTask taskId claimToken error =>
    cases hsettle : failTask now db.tasks taskId claimToken error with
    | error e =>
      simp only [eventsOf, handle, hsettle, hg]
      exact .stay
    | ok p =>
      simp only [eventsOf, handle, hsettle]
      exact settleTask_move (.fail error) rfl hsettle hg
  | registerWorker req =>
    cases hreg : registerWorker now db.workers req <;> simp only [eventsOf, handle, hreg, hg] <;>
      exact .stay
  | heartbeat req =>
    cases hbeat : heartbeat now db.tasks db.workers req with
    | error e =>
      simp only [eventsOf, handle, hbeat, hg]
      exact .stay
    | ok p =>
      simp only [eventsOf, handle, hbeat]
      exact heartbeat_move rfl hbeat hg
  | cleanupTasks =>
    simp only [eventsOf, handle, cleanupTasks, Table.get_filter, hg]
    by_cases hold : task.expiresAt < now
    · simpa [hold, Option.filter] using RowMove.delete rfl hold
    · simpa [hold, Option.filter] using RowMove.stay
  | cleanupWorkers =>
    simp only [eventsOf, handle, cleanupWorkers, hg]
    exact .stay
  | rescan rank =>
    simp only [eventsOf, handle, rescan, Table.get_reorder, hg]
    exact .stay

omit [EmptyCollection Json] in
theorem settleTask_absent {now : Time} {taskId : TaskId} {claimToken : String}
    {outcome : Outcome Json} {p : TaskTable Json × Task Json}
    (hp : settleTask now db.tasks taskId claimToken outcome = .ok p)
    (hg : db.tasks.get id = none) : taskId ≠ id ∧ p.1.get id = none := by
  obtain ⟨found, hfound, -, -, rfl⟩ := settleTask_ok_iff.1 hp
  have hne : taskId ≠ id := by
    rintro rfl
    cases hg.symm.trans hfound
  exact ⟨hne, by rw [Table.get_modify_of_ne _ _ _ hne.symm, hg]⟩

/-- A task that is not there appears by its submission only. -/
theorem handle_absent (cfg : Settings) (r : Timed Json) (hg : db.tasks.get id = none) :
    (eventsOf cfg id db r = [] ∧ (handle cfg db r).1.tasks.get id = none) ∨
    ∃ taskType payload leaseMinutes retentionHours task,
      r.request = .submitTask id taskType payload leaseMinutes retentionHours ∧
      queuedRow cfg r.now r.later id taskType payload leaseMinutes retentionHours = .ok task ∧
      eventsOf cfg id db r = [.submitted] ∧
      (handle cfg db r).1.tasks.get id = some task := by
  obtain ⟨now, later, request⟩ := r
  cases request with
  | submitTask newId taskType payload leaseMinutes retentionHours =>
    cases hsub : submitTask cfg now later newId db.tasks taskType payload leaseMinutes
        retentionHours with
    | error e =>
      simp only [eventsOf, handle, hsub, hg]
      exact .inl ⟨trivial, trivial⟩
    | ok p =>
      obtain ⟨added, hrow, hi, rfl⟩ := submitTask_ok_iff.1 hsub
      obtain rfl := (queuedRow_ok hrow).1
      simp only [eventsOf, handle, hsub, Table.get_insertNew]
      by_cases hid : added.id = id
      · subst hid
        exact .inr ⟨taskType, payload, leaseMinutes, retentionHours, added, rfl, hrow,
          if_pos rfl, if_pos rfl⟩
      · exact .inl ⟨if_neg hid, by rw [if_neg (Ne.symm hid), hg]⟩
  | claimNext claimToken taskTypes workerId leaseMinutes =>
    refine .inl ?_
    cases hclaim : claimNext now claimToken db.tasks taskTypes workerId leaseMinutes with
    | error e => simp only [eventsOf, handle, hclaim, hg, and_self]
    | ok p =>
      simp only [eventsOf, handle, hclaim, hg, sweepEvents, List.nil_append]
      refine ⟨?_, (claimNext_sameTask hclaim id).1 hg⟩
      obtain ⟨-, rfl | ⟨picked, hpicked, -, rfl⟩⟩ := claimNext_ok_cases hclaim
      · rfl
      · have hne : picked.id ≠ id := by
          rintro rfl
          rw [get_reclaim, hg] at hpicked
          cases hpicked
        exact if_neg hne
  | completeTask taskId claimToken result =>
    refine .inl ?_
    cases hsettle : completeTask now db.tasks taskId claimToken result with
    | error e => simp only [eventsOf, handle, hsettle, hg, and_self]
    | ok p =>
      obtain ⟨hne, hg'⟩ := settleTask_absent hsettle hg
      simp only [eventsOf, handle, hsettle, if_neg hne, hg', and_self]
  | failTask taskId claimToken error =>
    refine .inl ?_
    cases hsettle : failTask now db.tasks taskId claimToken error with
    | error e => simp only [eventsOf, handle, hsettle, hg, and_self]
    | ok p =>
      obtain ⟨hne, hg'⟩ := settleTask_absent hsettle hg
      simp only [eventsOf, handle, hsettle, if_neg hne, hg', and_self]
  | registerWorker req =>
    refine .inl ?_
    cases hreg : registerWorker now db.workers req <;>
      simp only [eventsOf, handle, hreg, hg, and_self]
  | heartbeat req =>
    refine .inl ?_
    cases hbeat : heartbeat now db.tasks db.workers req with
    | error e => simp only [eventsOf, handle, hbeat, hg, and_self]
    | ok p =>
      obtain ⟨hok, rfl⟩ := heartbeat_ok_iff.1 hbeat
      simp only [eventsOf, handle, hbeat, beatTasks]
      cases hnamed : req.currentTaskId with
      | none => simp [hg]
      | some taskId =>
        have hne : taskId ≠ id := by
          rintro rfl
          obtain ⟨found, hfound, -⟩ :=
            checkTask_ok_iff.1 ((checkHeartbeat_ok_iff.1 hok).2 taskId hnamed)
          cases hg.symm.trans hfound
        simp [hne, Table.get_modify_of_ne _ _ _ hne.symm, hg]
  | cleanupTasks =>
    refine .inl ⟨rfl, ?_⟩
    simp only [handle, cleanupTasks, Table.get_filter, hg]
    rfl
  | cleanupWorkers => exact .inl ⟨rfl, hg⟩
  | rescan rank => exact .inl ⟨rfl, by simpa [handle, rescan] using hg⟩

end Effects

/-- The uuid that a request draws for a new row. -/
def submitted : Request Json → Option TaskId
  | .submitTask id .. => some id
  | _ => none

/-- The claim token that a request draws. -/
def drawn : Request Json → Option String
  | .claimNext claimToken .. => some claimToken
  | _ => none

/-- No uuid of a run is drawn twice. -/
structure FreshDraws (rs : List (Timed Json)) : Prop where
  ids : (rs.filterMap fun r => submitted r.request).Nodup
  tokens : (rs.filterMap fun r => drawn r.request).Nodup

theorem FreshDraws.init {rs : List (Timed Json)} {r : Timed Json}
    (h : FreshDraws (rs ++ [r])) : FreshDraws rs := by
  have hids := h.ids
  have htokens := h.tokens
  rw [List.filterMap_append] at hids htokens
  exact ⟨(List.nodup_append.1 hids).1, (List.nodup_append.1 htokens).1⟩

theorem FreshDraws.submitted_new {rs : List (Timed Json)} {r : Timed Json} {id : TaskId}
    (h : FreshDraws (rs ++ [r])) (hr : submitted r.request = some id) :
    id ∉ rs.filterMap fun r => submitted r.request := by
  have hids := h.ids
  rw [List.filterMap_append, List.nodup_append] at hids
  exact fun hmem => hids.2.2 id hmem id (by simp [hr]) rfl

theorem FreshDraws.drawn_new {rs : List (Timed Json)} {r : Timed Json} {claimToken : String}
    (h : FreshDraws (rs ++ [r])) (hr : drawn r.request = some claimToken) :
    claimToken ∉ rs.filterMap fun r => drawn r.request := by
  have htokens := h.tokens
  rw [List.filterMap_append, List.nodup_append] at htokens
  exact fun hmem => htokens.2.2 claimToken hmem claimToken (by simp [hr]) rfl

section Runs
variable [EmptyCollection Json] (cfg : Settings)

/-- What a run of requests is for a task. -/
def historyOf (id : TaskId) : Served Json → List (Timed Json) → List RowEvent
  | _, [] => []
  | s, r :: rs => eventsOf cfg id s.db r ++ match step cfg s r with
    | none => []
    | some t => historyOf id t rs

variable {cfg}

theorem historyOf_concat {id : TaskId} {s m t : Served Json} {rs : List (Timed Json)}
    {r : Timed Json} (hrun : exec (step cfg) s rs = some m) (hr : step cfg m r = some t) :
    historyOf cfg id s (rs ++ [r]) = historyOf cfg id s rs ++ eventsOf cfg id m.db r := by
  induction rs generalizing s with
  | nil =>
    cases hrun
    simp [historyOf, hr]
  | cons q rs ih =>
    obtain ⟨n, hn, hrest⟩ := exec_cons_inv hrun
    simp only [List.cons_append, historyOf, hn, ih hrest, List.append_assoc]

/-- What the history of a task and its row have to do with each other, with the requests
that have drawn so far. -/
structure Tracked (id : TaskId) (rs : List (Timed Json)) (history : List RowEvent)
    (row : Option (Task Json)) : Prop where
  lawful : LawfulFrom Lapsed .absent history
  phase : ∀ task, row = some task → after .absent history = phase task
  unborn : id ∉ (rs.filterMap fun r => submitted r.request) → history = [] ∧ row = none
  known : ∀ token ∈ tokensOf history, ∃ claimToken,
    token = some claimToken ∧ claimToken ∈ rs.filterMap fun r => drawn r.request
  nodup : (tokensOf history).Nodup

/-- One request keeps a task and its history together. -/
theorem step_tracked {id : TaskId} {rs : List (Timed Json)} {r : Timed Json}
    {history : List RowEvent} {db : Db Json} (h : Tracked id rs history (db.tasks.get id))
    (hfresh : FreshDraws (rs ++ [r])) :
    Tracked id (rs ++ [r]) (history ++ eventsOf cfg id db r)
      ((handle cfg db r).1.tasks.get id) := by
  have hsub : ∀ {α : Type} {f : Timed Json → Option α} {x : α}, x ∈ rs.filterMap f →
      x ∈ (rs ++ [r]).filterMap f := fun hx => by
    rw [List.filterMap_append]
    exact List.mem_append_left _ hx
  have hknown : ∀ token ∈ tokensOf history, ∃ claimToken, token = some claimToken ∧
      claimToken ∈ (rs ++ [r]).filterMap fun r => drawn r.request := by
    intro token ht
    obtain ⟨claimToken, rfl, hmem⟩ := h.known token ht
    exact ⟨claimToken, rfl, hsub hmem⟩
  cases hg : db.tasks.get id with
  | none =>
    rw [hg] at h
    rcases handle_absent cfg r hg with
      ⟨hes, hg'⟩ | ⟨taskType, payload, leaseMinutes, retentionHours, task, hr, hrow, hes, hg'⟩
    · rw [hes, List.append_nil, hg']
      refine ⟨h.lawful, ?_, fun hid => ⟨(h.unborn fun hmem => hid (hsub hmem)).1, rfl⟩,
        hknown, h.nodup⟩
      rintro task ⟨⟩
    · have hdrawn : submitted r.request = some id := by rw [hr]; rfl
      have hnew := hfresh.submitted_new hdrawn
      rw [hes, hg', (h.unborn hnew).1]
      refine ⟨⟨trivial, trivial⟩, ?_, ?_, ?_, List.nodup_nil⟩
      · rintro x ⟨⟩
        simp [ReadCommittedRequests.phase, (queuedRow_ok hrow).2.1, next]
      · intro hid
        exact absurd (by simp [hr, submitted]) hid
      · rintro token ⟨⟩
  | some task =>
    have hmove := handle_move cfg r hg
    obtain ⟨hl, hp⟩ := hmove.lawful
    have hphase := h.phase task hg
    refine ⟨lawfulFrom_append.2 ⟨h.lawful, hphase ▸ hl⟩, ?_, ?_, ?_, ?_⟩
    · intro task' h'
      rw [after_append, hphase]
      exact hp task' h'
    · intro hid
      have hnone := (h.unborn fun hmem => hid (hsub hmem)).2
      cases hg.symm.trans hnone
    · rw [tokensOf_append]
      intro token ht
      rcases List.mem_append.1 ht with ht | ht
      · exact hknown token ht
      · rcases hmove.tokens with hnil | ⟨claimToken, taskTypes, workerId, lease, hr, htok⟩
        · rw [hnil] at ht
          cases ht
        · rw [htok, List.mem_singleton] at ht
          exact ⟨claimToken, ht, by simp [hr, drawn]⟩
    · rw [tokensOf_append]
      rcases hmove.tokens with hnil | ⟨claimToken, taskTypes, workerId, lease, hr, htok⟩
      · rw [hnil, List.append_nil]
        exact h.nodup
      · rw [htok]
        refine h.nodup.append (List.nodup_singleton _) ?_
        rw [List.disjoint_singleton]
        intro hmem
        obtain ⟨k, hk, hdrawn⟩ := h.known _ hmem
        cases hk
        exact hfresh.drawn_new (by rw [hr]; rfl) hdrawn

theorem run_tracked {clock : Time} {rs : List (Timed Json)} {s : Served Json}
    (hrun : exec (step cfg) (start clock) rs = some s) (hfresh : FreshDraws rs) (id : TaskId) :
    Tracked id rs (historyOf cfg id (start clock) rs) (s.db.tasks.get id) := by
  revert hfresh
  refine invariant_with_past (I := fun rs s => FreshDraws rs →
    Tracked id rs (historyOf cfg id (start clock) rs) (s.db.tasks.get id)) ?_ ?_ hrun
  · intro _
    refine ⟨trivial, ?_, fun _ => ⟨rfl, rfl⟩, ?_, List.nodup_nil⟩
    · rintro task ⟨⟩
    · rintro token ⟨⟩
  · intro ks m r n hks ih hr hfresh
    rw [historyOf_concat hks hr]
    obtain ⟨-, -, rfl⟩ := step_inv cfg hr
    exact step_tracked (ih hfresh.init) hfresh

/-- What the lease protocol promises of a task: `history` is what has happened to it, `row`
what is stored of it. -/
structure FollowsLease (history : List RowEvent) (row : Option (Task Json)) : Prop where
  lawful : LawfulFrom Lapsed .absent history
  /-- The stored row says where the history has led, until it is deleted. -/
  shown : ∀ task, row = some task → after .absent history = phase task
  once : history.countP Event.isSettlement ≤ 1
  /-- A token whose claim was taken back never settles the task. -/
  stale : ∀ pre lease now post token, history = pre ++ .reclaimed lease now :: post →
    token ∈ tokensOf pre → .settled token ∉ post

omit [EmptyCollection Json] in
theorem Tracked.followsLease {id : TaskId} {rs : List (Timed Json)} {history : List RowEvent}
    {row : Option (Task Json)} (h : Tracked id rs history row) : FollowsLease history row := by
  refine ⟨h.lawful, h.phase, settlements_le_one h.lawful, ?_⟩
  intro pre lease now post token heq ht
  have hl := h.lawful
  have hn := h.nodup
  rw [heq] at hl hn
  exact stale_never_settles hl hn ht

/-- Requests that are served one at a time keep the lease protocol for every task. -/
theorem requests_keep_lease (cfg : Settings) (clock : Time) (rs : List (Timed Json))
    (s : Served Json) (hrun : exec (step cfg) (start clock) rs = some s)
    (hfresh : FreshDraws rs) (id : TaskId) :
    FollowsLease (historyOf cfg id (start clock) rs) (s.db.tasks.get id) :=
  (run_tracked hrun hfresh id).followsLease

/-- The first worker reports after its lease has lapsed and the task has a new holder. -/
def lateOutcome : List (Timed (List ℕ)) :=
  [⟨0, 1, .submitTask "a" "image_generation" [] none none⟩,
    ⟨2, 2, .claimNext "token-1" ["image_generation"] "worker-1" (some 1)⟩,
    ⟨minutes 2, minutes 2, .claimNext "token-2" ["image_generation"] "worker-2" none⟩,
    ⟨minutes 3, minutes 3, .completeTask "a" "token-1" []⟩,
    ⟨minutes 4, minutes 4, .completeTask "a" "token-2" [1]⟩]

theorem requests_keep_lease_lateOutcome :
    ∃ s, exec (step {}) (start 0) lateOutcome = some s ∧
      (historyOf {} "a" (start 0) lateOutcome).length = 5 ∧
      FollowsLease (historyOf {} "a" (start 0) lateOutcome) (s.db.tasks.get "a") :=
  ⟨_, rfl, by decide, requests_keep_lease {} 0 lateOutcome _ rfl ⟨by decide, by decide⟩ "a"⟩

end Runs
end TaskQueue.LeaseRefinement

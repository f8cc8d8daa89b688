import TaskQueue.StorableValues
import TaskQueue.TaskRowInvariant

/-!
# A live claim is kept

A claimed row leaves its claim in three ways only: a sweep that finds its lease lapsed,
an accepted outcome, or the deletion of the row. While none of them happens the claim
stays with its holder, and the stored lease is the one its last accepted heartbeat set. What
the holder sends is accepted exactly if the columns take it.
-/

namespace TaskQueue.LiveClaims
open KeyedTables TaskService WorkerService TaskRowInvariant StepRuns StorableValues
open SerialRequests hiding step step_inv

variable {Json : Type}

/-- The row is claimed by this worker under this token. -/
def HeldBy (workerId claimToken : String) (task : Task Json) : Prop :=
  task.status = .claimed ∧ task.claimedBy = some workerId ∧ task.claimToken = some claimToken

theorem HeldBy.beat {workerId claimToken : String} {task : Task Json}
    (h : HeldBy workerId claimToken task) (req : Heartbeat Json) (now : Time) :
    HeldBy workerId claimToken (beatTask req now task) := h

/-- The stored lease has not passed. -/
def LeaseLive (now : Time) (task : Task Json) : Prop :=
  ∀ lease, task.leaseExpiresAt = some lease → now ≤ lease

theorem not_leaseLapsed {taskTypes : List String} {now : Time} {task : Task Json}
    (h : LeaseLive now task) : leaseLapsed taskTypes now task = false := by
  rw [Bool.eq_false_iff, Ne, leaseLapsed_iff]
  rintro ⟨-, -, lease, hl, hlt⟩
  exact absurd (h lease hl) (not_le.2 hlt)

theorem get_reclaim_of_live {taskTypes : List String} {now : Time} {tasks : TaskTable Json}
    {id : TaskId} {task : Task Json} (hg : tasks.get id = some task) (hl : LeaseLive now task) :
    (reclaim taskTypes now tasks).get id = some task := by
  simp [reclaim, hg, not_leaseLapsed hl]

/-- A claim touches no row that is claimed under a live lease, and hands out none. -/
theorem claimNext_of_live {now : Time} {claimToken : String} {tasks : TaskTable Json}
    {taskTypes : List String} {workerId : String} {leaseMinutes : Option Int}
    {r : TaskTable Json × Option (Task Json)} {id : TaskId} {task : Task Json}
    (hr : claimNext now claimToken tasks taskTypes workerId leaseMinutes = .ok r)
    (hg : tasks.get id = some task) (hs : task.status = .claimed) (hl : LeaseLive now task) :
    r.1.get id = some task ∧ ∀ row, r.2 = some row → row.id ≠ id := by
  have hsweep : (reclaim taskTypes now tasks).get id = some task := get_reclaim_of_live hg hl
  obtain ⟨-, rfl | ⟨picked, hp, hq, rfl⟩⟩ := claimNext_ok_cases hr
  · exact ⟨hsweep, fun row hrow => absurd hrow.symm (Option.some_ne_none row)⟩
  · have hne : id ≠ picked.id := by
      rintro rfl
      obtain rfl : task = picked := Option.some.inj (hsweep.symm.trans hp)
      rw [hs] at hq
      cases hq
    refine ⟨?_, ?_⟩
    · rw [Table.get_modify_of_ne _ _ (claimRow_id workerId claimToken now leaseMinutes) hne]
      exact hsweep
    rintro row hrow
    cases hrow
    exact hne.symm

theorem settleTask_of_ne {now : Time} {tasks : TaskTable Json} {taskId id : TaskId}
    {claimToken : String} {outcome : Outcome Json} {r : TaskTable Json × Task Json}
    (hr : settleTask now tasks taskId claimToken outcome = .ok r) (hne : taskId ≠ id) :
    r.1.get id = tasks.get id := by
  obtain ⟨task, -, -, -, rfl⟩ := settleTask_ok_iff.1 hr
  exact Table.get_modify_of_ne _ _ (settleRow_id outcome now) hne.symm

/-- The row a claim hands out is stored, held by the caller under the fresh token. -/
theorem held_of_claimNext {now : Time} {claimToken : String} {tasks : TaskTable Json}
    {taskTypes : List String} {workerId : String} {leaseMinutes : Option Int}
    {tasks' : TaskTable Json} {row : Task Json}
    (h : claimNext now claimToken tasks taskTypes workerId leaseMinutes =
      .ok (tasks', some row)) :
    tasks'.get row.id = some row ∧ HeldBy workerId claimToken row := by
  obtain ⟨-, h | ⟨task, hg, -, h⟩⟩ := claimNext_ok_cases h
  · cases h
  · cases h
    refine ⟨?_, rfl, rfl, rfl⟩
    rw [claimRow_id, Table.get_modify_self, hg]
    rfl

/-- The request is a heartbeat that names the task, and is accepted. -/
def Beats (id : TaskId) (request : Request Json) (accepted : Bool) : Prop :=
  ∃ req, request = .heartbeat req ∧ req.currentTaskId = some id ∧ accepted = true

theorem not_beats {id : TaskId} {request : Request Json} {accepted : Bool}
    (h : ∀ req, request ≠ .heartbeat req) : ¬Beats id request accepted := by
  rintro ⟨req, hreq, -⟩
  exact h req hreq

/-- The request is neither an accepted outcome for the task nor the deletion of its row. -/
def Leaves (id : TaskId) (db : Db Json) (r : Timed Json) (accepted : Bool) : Prop :=
  match r.request with
  | .completeTask taskId _ _ => taskId = id → accepted = false
  | .failTask taskId _ _ => taskId = id → accepted = false
  | .cleanupTasks => ∀ task, db.tasks.get id = some task → r.now ≤ task.expiresAt
  | _ => True

/-- If the request is a claim, the task's stored lease has not passed its `now`. -/
def LiveAtClaims (id : TaskId) (s : Served Json) (r : Timed Json) : Prop :=
  match r.request with
  | .claimNext .. => ∀ task, s.db.tasks.get id = some task → LeaseLive r.now task
  | _ => True

section Runs
variable [EmptyCollection Json] (cfg : Settings) (eager : Bool) (jsonb : Json → Bool)

def AcceptedBeat (id : TaskId) (s : Served Json) (r : Timed Json) : Prop :=
  Beats id r.request (accepted (answer cfg eager jsonb s.db r))

def LeavesOpen (id : TaskId) (s : Served Json) (r : Timed Json) : Prop :=
  Leaves id s.db r (accepted (answer cfg eager jsonb s.db r))

/-- No claim returns the task. -/
def NotHandedOut (id : TaskId) (s : Served Json) (r : Timed Json) : Prop :=
  ∀ db row, answer cfg eager jsonb s.db r = .ok (db, .claimed (some row)) → row.id ≠ id

open Classical in
/-- At every request of the run the last accepted heartbeat for the task is at most
`ACTIVE_LEASE_MINUTES` old; before the first one, `deadline` has not passed. -/
def KeepsUp (id : TaskId) : Time → Served Json → List (Timed Json) → Prop
  | _, _, [] => True
  | deadline, s, r :: rs => r.now ≤ deadline ∧ match step cfg eager jsonb s r with
    | none => True
    | some t =>
      KeepsUp id
        (if AcceptedBeat cfg eager jsonb id s r then r.now + minutes activeLeaseMinutes
        else deadline) t rs

/-- What one request does to a claimed row whose claim stays open: nothing, or the
renewal by an accepted heartbeat. -/
theorem get_handle {id : TaskId} {s : Served Json} {r : Timed Json} {task : Task Json}
    (hg : s.db.tasks.get id = some task) (hs : task.status = .claimed)
    (hopen : Leaves id s.db r (!Response.isRejected (handle cfg s.db r).2))
    (hlive : LiveAtClaims id s r) :
    (¬Beats id r.request (!Response.isRejected (handle cfg s.db r).2) ∧
      (handle cfg s.db r).1.tasks.get id = some task) ∨
    (Beats id r.request (!Response.isRejected (handle cfg s.db r).2) ∧
      ∃ req, (handle cfg s.db r).1.tasks.get id = some (beatTask req r.now task)) := by
  obtain ⟨now, later, request⟩ := r
  cases request with
  | heartbeat req =>
    simp only [handle]
    cases hh : heartbeat now s.db.tasks s.db.workers req with
    | error e =>
      refine .inl ⟨?_, hg⟩
      rintro ⟨req', -, -, haccepted⟩
      cases haccepted
    | ok p =>
      obtain ⟨hok, rfl⟩ := heartbeat_ok_iff.1 hh
      simp only [beatTasks]
      cases hid : req.currentTaskId with
      | none =>
        refine .inl ⟨?_, hg⟩
        rintro ⟨req', hreq, hid', -⟩
        cases hreq
        simp [hid] at hid'
      | some taskId =>
        by_cases he : taskId = id
        · subst he
          exact .inr ⟨⟨req, rfl, hid, rfl⟩, req, by simp [hg]⟩
        · refine .inl ⟨?_, by rw [Table.get_modify_of_ne _ _ _ (Ne.symm he), hg]⟩
          rintro ⟨req', hreq, hid', -⟩
          cases hreq
          exact he (Option.some.inj (hid.symm.trans hid'))
  | submitTask newId taskType payload leaseMinutes retentionHours =>
    refine .inl ⟨not_beats (by simp), ?_⟩
    simp only [handle]
    split
    · rename_i hsub
      obtain ⟨added, -, hi, hp⟩ := submitTask_ok_iff.1 hsub
      cases hp
      rw [Table.get_insertNew]
      split_ifs with he
      · subst he
        simp [hi] at hg
      · exact hg
    · exact hg
  | claimNext claimToken taskTypes workerId leaseMinutes =>
    refine .inl ⟨not_beats (by simp), ?_⟩
    simp only [handle]
    split
    · exact (claimNext_of_live ‹_› hg hs (hlive task hg)).1
    · exact hg
  | completeTask taskId claimToken result =>
    refine .inl ⟨not_beats (by simp), ?_⟩
    simp only [Leaves, handle] at hopen ⊢
    split at hopen <;> rename_i hc <;> simp only
    · rw [settleTask_of_ne hc fun he => Bool.false_ne_true (hopen he).symm]
      exact hg
    · exact hg
  | failTask taskId claimToken error =>
    refine .inl ⟨not_beats (by simp), ?_⟩
    simp only [Leaves, handle] at hopen ⊢
    split at hopen <;> rename_i hc <;> simp only
    · rw [settleTask_of_ne hc fun he => Bool.false_ne_true (hopen he).symm]
      exact hg
    · exact hg
  | registerWorker req =>
    refine .inl ⟨not_beats (by simp), ?_⟩
    simp only [handle]
    split <;> exact hg
  | cleanupTasks =>
    refine .inl ⟨not_beats (by simp), ?_⟩
    simp [handle, cleanupTasks, Table.get_filter, hg, hopen task hg]
  | cleanupWorkers => exact .inl ⟨not_beats (by simp), hg⟩
  | rescan rank =>
    refine .inl ⟨not_beats (by simp), ?_⟩
    simp [handle, rescan, hg]

/-- The same of the request with the limits of the columns. -/
theorem get_tablesAfter {id : TaskId} {s : Served Json} {r : Timed Json} {task : Task Json}
    (hg : s.db.tasks.get id = some task) (hs : task.status = .claimed)
    (hopen : LeavesOpen cfg eager jsonb id s r) (hlive : LiveAtClaims id s r) :
    (¬AcceptedBeat cfg eager jsonb id s r ∧
      (tablesAfter cfg eager jsonb s.db r).tasks.get id = some task) ∨
    (AcceptedBeat cfg eager jsonb id s r ∧
      ∃ req, (tablesAfter cfg eager jsonb s.db r).tasks.get id =
        some (beatTask req r.now task)) := by
  rcases answer_cases cfg eager jsonb s.db r with ⟨hanswer, htables⟩ | ⟨⟨fault, hanswer⟩, htables⟩
  · rw [LeavesOpen, hanswer] at hopen
    rw [AcceptedBeat, hanswer, htables]
    exact get_handle cfg hg hs hopen hlive
  · rw [AcceptedBeat, hanswer, htables]
    refine .inl ⟨?_, hg⟩
    rintro ⟨req, -, -, haccepted⟩
    cases haccepted

/-- The row with this id is held by this worker under this token. -/
def Held (id : TaskId) (workerId claimToken : String) (s : Served Json) : Prop :=
  ∃ task, s.db.tasks.get id = some task ∧ HeldBy workerId claimToken task

/-- A claim that finds the lease live hands out other tasks only. -/
theorem notHandedOut_of_held {id : TaskId} {workerId claimToken : String} {s : Served Json}
    {r : Timed Json} (h : Held id workerId claimToken s) (hlive : LiveAtClaims id s r) :
    NotHandedOut cfg eager jsonb id s r := by
  obtain ⟨task, hg, hs, -⟩ := h
  intro db row hanswer
  have hrow : (handle cfg s.db r).2 = .claimed (some row) := by
    rcases answer_cases cfg eager jsonb s.db r with ⟨hok, -⟩ | ⟨⟨fault, herror⟩, -⟩
    · exact congrArg Prod.snd (Except.ok.inj (hok.symm.trans hanswer))
    · cases herror.symm.trans hanswer
  obtain ⟨now, later, request⟩ := r
  cases request with
  | claimNext token taskTypes holder leaseMinutes =>
    simp only [handle] at hrow
    split at hrow
    · cases hrow
      exact (claimNext_of_live ‹_› hg hs (hlive task hg)).2 row rfl
    · cases hrow
  | _ =>
    simp only [handle] at hrow
    first | (split at hrow <;> cases hrow) | cases hrow

/-- One request keeps an open claim whose lease is live when a claim reads it. -/
theorem step_held {id : TaskId} {workerId claimToken : String} {s t : Served Json}
    {r : Timed Json} (h : Held id workerId claimToken s) (hopen : LeavesOpen cfg eager jsonb id s r)
    (hlive : LiveAtClaims id s r) (hstep : step cfg eager jsonb s r = some t) :
    Held id workerId claimToken t := by
  obtain ⟨task, hg, hheld⟩ := h
  obtain ⟨-, -, rfl⟩ := step_inv hstep
  rcases get_tablesAfter cfg eager jsonb hg hheld.1 hopen hlive with ⟨-, hg'⟩ | ⟨-, req, hg'⟩
  · exact ⟨task, hg', hheld⟩
  · exact ⟨_, hg', hheld.beat req r.now⟩

theorem run_held {id : TaskId} {workerId claimToken : String} {s t : Served Json}
    {rs : List (Timed Json)} (h : Held id workerId claimToken s)
    (hopen : Along (step cfg eager jsonb) (LeavesOpen cfg eager jsonb id) s rs)
    (hlive : Along (step cfg eager jsonb) (LiveAtClaims id) s rs)
    (hrun : exec (step cfg eager jsonb) s rs = some t) :
    Held id workerId claimToken t ∧
      Along (step cfg eager jsonb) (NotHandedOut cfg eager jsonb id) s rs := by
  induction rs generalizing s with
  | nil => cases hrun; exact ⟨h, trivial⟩
  | cons r rs ih =>
    obtain ⟨m, hm, hr⟩ := exec_cons_inv hrun
    obtain ⟨ho, hos⟩ := (along_cons_of_step hm rs).1 hopen
    obtain ⟨hl, hls⟩ := (along_cons_of_step hm rs).1 hlive
    obtain ⟨hend, hout⟩ := ih (step_held cfg eager jsonb h ho hl hm) hos hls hr
    exact ⟨hend, (along_cons_of_step hm rs).2 ⟨notHandedOut_of_held cfg eager jsonb h hl, hout⟩⟩

/-- Heartbeats that keep up move the stored lease ahead of every claim. -/
theorem live_of_keepsUp {id : TaskId} {s : Served Json} {rs : List (Timed Json)}
    {task : Task Json} {deadline : Time} (hg : s.db.tasks.get id = some task)
    (hs : task.status = .claimed) (hd : task.leaseExpiresAt = some deadline)
    (hopen : Along (step cfg eager jsonb) (LeavesOpen cfg eager jsonb id) s rs)
    (hkeep : KeepsUp cfg eager jsonb id deadline s rs) :
    Along (step cfg eager jsonb) (LiveAtClaims id) s rs := by
  induction rs generalizing s task deadline with
  | nil => trivial
  | cons r rs ih =>
    cases hm : step cfg eager jsonb s r with
    | none => simp [Along, hm]
    | some t =>
      obtain ⟨hr, hrest⟩ := hkeep
      simp only [hm] at hrest
      obtain ⟨ho, hos⟩ := (along_cons_of_step hm rs).1 hopen
      have hlive : LiveAtClaims id s r := by
        unfold LiveAtClaims
        split
        · intro x hx lease hl
          rw [hg] at hx
          cases hx
          rw [hd] at hl
          cases hl
          exact hr
        · trivial
      refine (along_cons_of_step hm rs).2 ⟨hlive, ?_⟩
      obtain ⟨-, -, rfl⟩ := step_inv hm
      rcases get_tablesAfter cfg eager jsonb hg hs ho hlive with ⟨hno, hg'⟩ | ⟨hbeat, req, hg'⟩
      · rw [if_neg hno] at hrest
        exact ih hg' hs hd hos hrest
      · rw [if_pos hbeat] at hrest
        exact ih hg' hs rfl hos hrest

/-- A busy heartbeat from the current session of the worker, for the task and under the
token. -/
structure WellFormed (id : TaskId) (workerId claimToken : String) (s : Served Json)
    (req : Heartbeat Json) : Prop where
  worker : req.workerId = workerId
  state : req.state = .busy
  task : req.currentTaskId = some id
  token : req.claimToken = some claimToken
  progress : ProgressInRange req.progressCurrent req.progressTotal
  session : ∃ worker, s.db.workers.get workerId = some worker ∧ worker.sessionId = req.sessionId

/-- What the holder of a claim can still do in a state: an outcome is accepted if and only if
its document or text can be stored, and a busy heartbeat from its current session that names
the task and its token if and only if its numbers fit and its texts and details can be stored;
no claim that finds the lease live is given the task. -/
structure Kept (id : TaskId) (workerId claimToken : String) (s : Served Json) : Prop where
  held : Held id workerId claimToken s
  complete : ∀ now later result, accepted (answer cfg eager jsonb s.db
    ⟨now, later, .completeTask id claimToken result⟩) = true ↔ jsonb result = true
  fail : ∀ now later error, accepted (answer cfg eager jsonb s.db
    ⟨now, later, .failTask id claimToken error⟩) = true ↔ storableText error = true
  beat : ∀ now later req, WellFormed id workerId claimToken s req →
    (accepted (answer cfg eager jsonb s.db ⟨now, later, .heartbeat req⟩) = true ↔
      (MachineNumbers.IsDatetime (now + minutes activeLeaseMinutes) ∧
        (∀ n, req.progressCurrent = some n → MachineNumbers.IsInteger n) ∧
        ∀ n, req.progressTotal = some n → MachineNumbers.IsInteger n) ∧
      storable jsonb (.heartbeat req) = true)
  claim : ∀ r, LiveAtClaims id s r → NotHandedOut cfg eager jsonb id s r

omit [EmptyCollection Json] in
theorem checkHeartbeat_of_held {id : TaskId} {workerId claimToken : String} {s : Served Json}
    (h : Held id workerId claimToken s) {req : Heartbeat Json}
    (hreq : WellFormed id workerId claimToken s req) :
    checkHeartbeat s.db.tasks s.db.workers req = .ok () := by
  obtain ⟨task, hg, hs, hb, hk⟩ := h
  obtain ⟨hw, hbusy, hid, htok, hp, worker, hworker, hsession⟩ := hreq
  refine checkHeartbeat_ok_iff.2 ⟨?_, ?_⟩
  · exact checkWorker_ok_iff.2 ⟨worker, hw ▸ hworker, hsession, by simp [hbusy, hid], hp⟩
  · intro taskId ht
    rw [hid] at ht
    cases ht
    exact checkTask_ok_iff.2 ⟨task, hg, hs, hw ▸ hb, hk.trans htok.symm⟩

omit [EmptyCollection Json] in
/-- The service refuses no outcome from the holder. -/
theorem settles_of_held {id : TaskId} {workerId claimToken : String} {s : Served Json}
    (h : Held id workerId claimToken s) (now : Time) (outcome : Outcome Json) :
    ∃ p, settleTask now s.db.tasks id claimToken outcome = .ok p := by
  obtain ⟨task, hg, hs, -, hk⟩ := h
  exact ⟨_, settleTask_ok_iff.2 ⟨task, hg, hs, hk, rfl⟩⟩

theorem kept_of_held {id : TaskId} {workerId claimToken : String} {s : Served Json}
    (h : Held id workerId claimToken s) : Kept cfg eager jsonb id workerId claimToken s := by
  refine ⟨h, ?_, ?_, ?_, fun r => notHandedOut_of_held cfg eager jsonb h⟩
  · intro now later result
    obtain ⟨p, hp⟩ := settles_of_held h now (.complete result)
    have hcomplete : completeTask now s.db.tasks id claimToken result = .ok p := hp
    refine (accepted_iff ?_).trans (and_iff_right trivial)
    simp only [handle, hcomplete]
    rfl
  · intro now later error
    obtain ⟨p, hp⟩ := settles_of_held h now (.fail error)
    have hfail : failTask now s.db.tasks id claimToken error = .ok p := hp
    refine (accepted_iff ?_).trans (and_iff_right trivial)
    simp only [handle, hfail]
    rfl
  · intro now later req hreq
    have hcheck := checkHeartbeat_of_held h hreq
    have hbeat : heartbeat now s.db.tasks s.db.workers req = .ok _ :=
      heartbeat_ok_iff.2 ⟨hcheck, rfl⟩
    refine (accepted_iff ?_).trans (and_congr_left' ?_)
    · simp only [handle, hbeat]
      rfl
    · simp only [MachineNumbers.Fits, hcheck, hreq.task, ne_eq, not_true_eq_false, false_or,
        reduceCtorEq]

/-- After a claim hands `row` to a worker, the worker keeps it through every run that
neither settles nor deletes the row, if every claim of the run finds the stored lease
live, and also if the worker's accepted heartbeats keep up with their deadline. -/
theorem live_claim_kept_iff (db db' : Db Json) (now later : Time) (claimToken workerId : String)
    (taskTypes : List String) (leaseMinutes : Option Int) (row : Task Json)
    (hclaim : answer cfg eager jsonb db
      ⟨now, later, .claimNext claimToken taskTypes workerId leaseMinutes⟩ =
        .ok (db', .claimed (some row)))
    (rs : List (Timed Json)) (s : Served Json)
    (hrun : exec (step cfg eager jsonb) ⟨db', later⟩ rs = some s)
    (hopen : Along (step cfg eager jsonb) (LeavesOpen cfg eager jsonb row.id) ⟨db', later⟩ rs)
    (hlive : Along (step cfg eager jsonb) (LiveAtClaims row.id) ⟨db', later⟩ rs ∨
      ∃ deadline, row.leaseExpiresAt = some deadline ∧
        KeepsUp cfg eager jsonb row.id deadline ⟨db', later⟩ rs) :
    Kept cfg eager jsonb row.id workerId claimToken s ∧
      Along (step cfg eager jsonb) (NotHandedOut cfg eager jsonb row.id) ⟨db', later⟩ rs := by
  obtain ⟨hg, hheld⟩ : db'.tasks.get row.id = some row ∧ HeldBy workerId claimToken row := by
    rcases answer_cases cfg eager jsonb db
      ⟨now, later, .claimNext claimToken taskTypes workerId leaseMinutes⟩ with
      ⟨hok, -⟩ | ⟨⟨fault, herror⟩, -⟩
    · have hhandle := Except.ok.inj (hok.symm.trans hclaim)
      simp only [handle] at hhandle
      split at hhandle
      · rename_i tasks' claimed hc
        cases hhandle
        exact held_of_claimNext hc
      · cases hhandle
    · cases herror.symm.trans hclaim
  have hl : Along (step cfg eager jsonb) (LiveAtClaims row.id) ⟨db', later⟩ rs := by
    rcases hlive with hl | ⟨deadline, hd, hkeep⟩
    · exact hl
    · exact live_of_keepsUp cfg eager jsonb hg hheld.1 hd hopen hkeep
  obtain ⟨hend, hout⟩ := run_held cfg eager jsonb ⟨row, hg, hheld⟩ hopen hl hrun
  exact ⟨kept_of_held cfg eager jsonb hend, hout⟩

/-- One queued task. -/
def oneQueuedTask : Db (List ℕ) :=
  (handle {} emptyDb ⟨0, 0, .submitTask "a" "text_generation" [] none none⟩).1

/-- A second worker asks for the same type while the lease of the first is live. -/
def secondClaim : List (Timed (List ℕ)) :=
  [⟨2, 2, .claimNext "other" ["text_generation"] "worker-2" none⟩]

theorem live_claim_kept_secondClaim :
    ∃ db' row s,
      answer {} true (fun _ => true) oneQueuedTask
        ⟨1, 1, .claimNext "token" ["text_generation"] "worker-1" none⟩ =
          .ok (db', .claimed (some row)) ∧
      exec (step {} true fun _ => true) ⟨db', 1⟩ secondClaim = some s ∧
      Kept {} true (fun _ => true) row.id "worker-1" "token" s := by
  refine ⟨_, _, _, rfl, rfl, And.left (live_claim_kept_iff {} true (fun _ => true) oneQueuedTask _
    1 1 "token" "worker-1" ["text_generation"] none _ rfl secondClaim _ rfl ?_ (.inl ?_))⟩
  · exact (along_cons_of_step rfl []).2 ⟨trivial, trivial⟩
  · refine (along_cons_of_step rfl []).2 ⟨?_, trivial⟩
    intro task hg lease hl
    cases hg
    cases hl
    decide

/-- A worker is registered, and a task is queued. -/
def workerAndTask : Db (List ℕ) :=
  (handle {} oneQueuedTask ⟨0, 0, .registerWorker ⟨"worker-1", "box", "session", [], none, none⟩⟩).1

/-- The progress of a worker that counts further than the column does. -/
def longCount : Heartbeat (List ℕ) where
  workerId := "worker-1"
  sessionId := "session"
  state := .busy
  currentTaskId := some "a"
  claimToken := some "token"
  progressStage := none
  progressMessage := none
  progressCurrent := some 2147483648
  progressTotal := none
  details := none

/-- Right after its claim the holder's heartbeat and the report of its failure break off. -/
theorem live_claim_refused :
    ∃ db' row, answer {} true (fun _ => true) workerAndTask
        ⟨1, 1, .claimNext "token" ["text_generation"] "worker-1" none⟩ =
          .ok (db', .claimed (some row)) ∧
      WellFormed row.id "worker-1" "token" ⟨db', 1⟩ longCount ∧
      accepted (answer {} true (fun _ => true) db' ⟨2, 2, .heartbeat longCount⟩) = false ∧
      accepted (answer {} true (fun _ => true) db' ⟨2, 2, .failTask row.id "token" "\x00"⟩) =
        false := by
  refine ⟨_, _, rfl, ⟨rfl, rfl, rfl, rfl, ?_, _, rfl, rfl⟩, rfl, rfl⟩
  exact nofun

end Runs
end TaskQueue.LiveClaims

import TaskQueue.LeaseRefinement

/-!
# The queue stores what was submitted

What a submission fixes of a task is its ticket. The table of tasks is, as far as tickets go, a
record of the accepted submissions: a claim, an outcome or a heartbeat neither loses, adds nor
alters one, however the requests interleave, and the retention job deletes those that are due.
-/

namespace TaskQueue.TaskLedger
open KeyedTables TaskService SerialRequests LeaseRefinement StepRuns

variable {Json : Type}

/-- The columns of a task that its submission fixes, beside its id. -/
structure Ticket (Json : Type) where
  taskType : String
  payload : Json
  leaseMinutes : Int
  createdAt : Time
  expiresAt : Time
  deriving DecidableEq

def ticket (task : Task Json) : Ticket Json :=
  ⟨task.taskType, task.payload, task.leaseMinutes, task.createdAt, task.expiresAt⟩

/-- The ticket of a submission, with the defaults of the settings. -/
def newTicket (cfg : Settings) (now createdAt : Time) (taskType : String) (payload : Json)
    (leaseMinutes retentionHours : Option Int) : Ticket Json where
  taskType := taskType
  payload := payload
  leaseMinutes := leaseMinutes.getD cfg.defaultLeaseMinutes
  createdAt := createdAt
  expiresAt := now + hours (retentionHours.getD cfg.defaultRetentionHours)

theorem ticket_queuedRow {cfg : Settings} {now createdAt : Time} {id : TaskId}
    {taskType : String} {payload : Json} {leaseMinutes retentionHours : Option Int}
    {task : Task Json}
    (h : queuedRow cfg now createdAt id taskType payload leaseMinutes retentionHours = .ok task) :
    ticket task = newTicket cfg now createdAt taskType payload leaseMinutes retentionHours := by
  dsimp only [queuedRow] at h
  split_ifs at h
  cases h
  rfl

@[simp] theorem ticket_requeueRow (task : Task Json) : ticket (requeueRow task) = ticket task := rfl

@[simp] theorem ticket_claimRow (workerId claimToken : String) (now : Time)
    (leaseMinutes : Option Int) (task : Task Json) :
    ticket (claimRow workerId claimToken now leaseMinutes task) = ticket task := rfl

@[simp] theorem ticket_settleRow (outcome : Outcome Json) (now : Time) (task : Task Json) :
    ticket (settleRow outcome now task) = ticket task := by
  cases outcome <;> rfl

@[simp] theorem ticket_beatTask (req : WorkerService.Heartbeat Json) (now : Time)
    (task : Task Json) : ticket (WorkerService.beatTask req now task) = ticket task := rfl

/-- An `UPDATE` that assigns none of these columns leaves the stored ticket. -/
theorem ticket_flushTask [DecidableEq Json] {loaded assigned : Task Json}
    (h : ticket assigned = ticket loaded) (stored : Task Json) :
    ticket (ReadCommittedRequests.flushTask loaded assigned stored) = ticket stored := by
  simp only [ticket, Ticket.mk.injEq] at h
  obtain ⟨htype, hpayload, hlease, hcreated, hexpires⟩ := h
  simp only [ticket, ReadCommittedRequests.flushTask, htype, hpayload, hlease, hcreated, hexpires,
    ReadCommittedRequests.flushed_same]

section Serial
variable [EmptyCollection Json] {cfg : Settings}

/-- The request submits a task with this id and ticket, and the response shows that it was
accepted. -/
def Submits (cfg : Settings) (s : Served Json) (r : Timed Json) (id : TaskId)
    (t : Ticket Json) : Prop :=
  ∃ taskType payload leaseMinutes retentionHours row,
    r.request = .submitTask id taskType payload leaseMinutes retentionHours ∧
    (handle cfg s.db r).2 = .task row ∧
    t = newTicket cfg r.now r.later taskType payload leaseMinutes retentionHours

/-- The retention job runs after the ticket has expired. -/
def Purges (r : Timed Json) (t : Ticket Json) : Prop :=
  r.request = .cleanupTasks ∧ t.expiresAt < r.now

variable {s : Served Json} {r : Timed Json} {id : TaskId} {t : Ticket Json}

/-- An accepted submission stores a row under a free id. -/
theorem Submits.stored (h : Submits cfg s r id t) : s.db.tasks.get id = none ∧
    ((handle cfg s.db r).1.tasks.get id).map ticket = some t := by
  obtain ⟨taskType, payload, leaseMinutes, retentionHours, row, hr, hresponse, rfl⟩ := h
  simp only [handle, hr] at hresponse ⊢
  cases hsub : submitTask cfg r.now r.later id s.db.tasks taskType payload leaseMinutes
      retentionHours with
  | error e =>
    simp only [hsub] at hresponse
    cases hresponse
  | ok p =>
    obtain ⟨task, hrow, hfree, rfl⟩ := submitTask_ok_iff.1 hsub
    obtain rfl := (queuedRow_ok hrow).1
    refine ⟨hfree, ?_⟩
    simp only [Table.get_insertNew, if_true, Option.map_some, ticket_queuedRow hrow]

/-- The retention job deletes what it purges. -/
theorem Purges.deleted (h : Purges r t) {task : Task Json} (hg : s.db.tasks.get id = some task)
    (ht : ticket task = t) : (handle cfg s.db r).1.tasks.get id = none := by
  subst ht
  obtain ⟨hr, hold⟩ := h
  have hdue : task.expiresAt < r.now := hold
  simp [handle, hr, cleanupTasks, Table.get_filter, hg, hdue]

omit [EmptyCollection Json] in
/-- A row that a request leaves in place keeps its ticket. -/
theorem ticket_of_move {task task' : Task Json} {es : List ReadCommittedRequests.RowEvent}
    (h : RowMove r task es (some task')) : ticket task' = ticket task := by
  cases h with
  | stay => rfl
  | sweep => rfl
  | claim => rfl
  | reclaim => rfl
  | settle => exact ticket_settleRow _ _ _
  | renew => rfl

omit [EmptyCollection Json] in
/-- A row goes only if it is purged. -/
theorem purges_of_move {task : Task Json} {es : List ReadCommittedRequests.RowEvent}
    (h : RowMove r task es none) : Purges r (ticket task) := by
  cases h with
  | delete request old => exact ⟨request, old⟩

variable (cfg) in
/-- What one request does to the tickets. -/
theorem handle_ticket (s : Served Json) (r : Timed Json) (id : TaskId) (t : Ticket Json) :
    ((handle cfg s.db r).1.tasks.get id).map ticket = some t ↔
      (s.db.tasks.get id).map ticket = some t ∧ ¬Purges r t ∨ Submits cfg s r id t := by
  cases hg : s.db.tasks.get id with
  | none =>
    simp only [Option.map_none, reduceCtorEq, false_and, false_or]
    refine ⟨fun h => ?_, fun h => h.stored.2⟩
    rcases handle_absent cfg r hg with ⟨-, habsent⟩ | hadded
    · rw [habsent] at h
      cases h
    · obtain ⟨taskType, payload, leaseMinutes, retentionHours, task, hr, hrow, -, hget⟩ := hadded
      rw [hget, Option.map_some, Option.some.injEq, ticket_queuedRow hrow] at h
      obtain rfl := (queuedRow_ok hrow).1
      refine ⟨taskType, payload, leaseMinutes, retentionHours, task, hr, ?_, h.symm⟩
      have hsub := submitTask_ok_iff.2 ⟨task, hrow, hg, rfl⟩
      simp only [handle, hr, hsub]
  | some task =>
    have hnew : ¬Submits cfg s r id t := fun h => by cases hg.symm.trans h.stored.1
    have hmove := handle_move cfg r hg
    simp only [Option.map_some, Option.some.injEq, or_iff_left hnew]
    cases hget : (handle cfg s.db r).1.tasks.get id with
    | none =>
      rw [hget] at hmove
      simp only [Option.map_none, reduceCtorEq, false_iff, not_and, not_not]
      rintro rfl
      exact purges_of_move hmove
    | some task' =>
      rw [hget] at hmove
      simp only [Option.map_some, Option.some.injEq, ticket_of_move hmove]
      refine ⟨fun h => ⟨h, fun hpurges => ?_⟩, fun h => h.1⟩
      cases hget.symm.trans (hpurges.deleted hg h)

/-- The run has accepted a submission of a task with this id and ticket. -/
def Submitted (cfg : Settings) (clock : Time) (rs : List (Timed Json)) (id : TaskId)
    (t : Ticket Json) : Prop :=
  ∃ pre r post m, rs = pre ++ r :: post ∧ exec (step cfg) (start clock) pre = some m ∧
    Submits cfg m r id t

theorem Submitted.append {clock : Time} {rs : List (Timed Json)} (h : Submitted cfg clock rs id t)
    (r : Timed Json) : Submitted cfg clock (rs ++ [r]) id t := by
  obtain ⟨pre, r', post, m, rfl, hpre, hsubmits⟩ := h
  exact ⟨pre, r', post ++ [r], m, by simp, hpre, hsubmits⟩

/-- What a run of requests has stored was submitted in it. -/
theorem submitted_of_stored {clock : Time} {rs : List (Timed Json)} {s : Served Json}
    (hrun : exec (step cfg) (start clock) rs = some s) {id : TaskId} {task : Task Json}
    (hg : s.db.tasks.get id = some task) : Submitted cfg clock rs id (ticket task) := by
  have hstored : (s.db.tasks.get id).map ticket = some (ticket task) := by
    rw [hg, Option.map_some]
  have hiff := stored_iff (I := fun _ => True)
    (fun (s : Served Json) id => (s.db.tasks.get id).map ticket) (Submits cfg) Purges
    (fun _ _ _ _ _ => trivial) (fun s r s' _ hstep id t => ?_) trivial (fun _ => rfl) hrun id
    (ticket task)
  · obtain ⟨pre, r, post, m, hsplit, hpre, hsubmits, -⟩ := hiff.1 hstored
    exact ⟨pre, r, post, m, hsplit, hpre, hsubmits⟩
  · obtain ⟨-, -, rfl⟩ := step_inv cfg hstep
    exact handle_ticket cfg s r id t

end Serial

section Concurrent
open ReadCommittedRequests (System Slot Lock Label submitStep)
open ReadCommittedSteps (SlotMove step_slot)

/-- The uncommitted version of a row has the ticket of the committed one. -/
def Agrees (slot : Slot Json) : Prop := ∀ lock ∈ slot.lock, ticket lock.row = ticket slot.row

variable {slot slot' : Slot Json}

theorem Agrees.visible (h : Agrees slot) (handler : ℕ) :
    ticket (slot.visible handler) = ticket slot.row := by
  unfold Slot.visible
  split
  · rfl
  · next lock hlock =>
    split
    · exact h lock hlock
    · rfl

theorem Agrees.write {f : Task Json → Task Json} (hf : ∀ task, ticket (f task) = ticket task)
    (h : Agrees slot) (handler : ℕ) (e : ReadCommittedRequests.RowEvent) :
    (slot.write handler f e).row = slot.row ∧ Agrees (slot.write handler f e) := by
  unfold Slot.write
  split
  · refine ⟨rfl, ?_⟩
    rintro lock ⟨⟩
    exact hf slot.row
  · next lock hlock =>
    refine ⟨rfl, ?_⟩
    rintro lock' ⟨⟩
    exact (hf lock.row).trans (h lock hlock)

theorem Agrees.publish (h : Agrees slot) (handler : ℕ) :
    ticket (slot.publish handler).row = ticket slot.row ∧ Agrees (slot.publish handler) := by
  unfold Slot.publish
  split
  · exact ⟨rfl, h⟩
  · next lock hlock =>
    split
    · exact ⟨h lock hlock, fun _ hnone => by cases hnone⟩
    · exact ⟨rfl, h⟩

theorem Agrees.release (h : Agrees slot) (handler : ℕ) :
    (slot.release handler).row = slot.row ∧ Agrees (slot.release handler) := by
  unfold Slot.release
  split
  · exact ⟨rfl, fun _ hnone => by cases hnone⟩
  · exact ⟨rfl, h⟩

/-- No step alters a ticket. -/
theorem ticket_of_slotMove [DecidableEq Json] {s t : System Json} {l : Label Json}
    (h : SlotMove s t l slot slot') (hs : Agrees slot) :
    ticket slot'.row = ticket slot.row ∧ Agrees slot' := by
  cases h with
  | stay => exact ⟨rfl, hs⟩
  | settle hh hg hl =>
    refine ⟨ticket_flushTask (ticket_settleRow _ _ _) _, fun lock hlock => ?_⟩
    cases hl.symm.trans hlock
  | renew hh hid hg hl =>
    refine ⟨ticket_flushTask (ticket_beatTask _ _ _) _, fun lock hlock => ?_⟩
    cases hl.symm.trans hlock
  | sweep hf hl =>
    obtain ⟨hrow, hagrees⟩ := hs.write ticket_requeueRow _ _
    exact ⟨congrArg ticket hrow, hagrees⟩
  | claim hh ht hf hc =>
    obtain ⟨hrow, hagrees⟩ := hs.write (ticket_claimRow _ _ _ _) _ _
    exact ⟨congrArg ticket hrow, hagrees⟩
  | publish handler => exact hs.publish handler
  | release handler =>
    obtain ⟨hrow, hagrees⟩ := hs.release handler
    exact ⟨congrArg ticket hrow, hagrees⟩

variable [DecidableEq Json] [EmptyCollection Json] {cfg : Settings}

/-- The step commits a submission of a task with this id and ticket. -/
def Inserts (cfg : Settings) (s : System Json) (l : Label Json) (id : TaskId)
    (t : Ticket Json) : Prop :=
  ∃ taskType payload leaseMinutes retentionHours now createdAt row,
    l = .submitTask id taskType payload leaseMinutes retentionHours now createdAt ∧
    queuedRow cfg now createdAt id taskType payload leaseMinutes retentionHours = .ok row ∧
    s.tasks.get id = none ∧
    t = newTicket cfg now createdAt taskType payload leaseMinutes retentionHours

variable {s s' : System Json} {l : Label Json} {id : TaskId} {t : Ticket Json}

/-- Only a submission adds a row. -/
theorem absent_of_handler (h : ReadCommittedRequests.step cfg s l = some s')
    (hl : ReadCommittedSteps.Label.handler l ≠ none) (hg : s.tasks.get id = none) :
    s'.tasks.get id = none := by
  cases l with
  | submitTask => exact absurd rfl hl
  | abort handler =>
    cases h
    simp [ReadCommittedRequests.abort, hg]
  | _ =>
    simp only [ReadCommittedRequests.step, ReadCommittedRequests.loadOutcome,
      ReadCommittedRequests.commitOutcome, ReadCommittedRequests.loadRegister,
      ReadCommittedRequests.commitRegister, ReadCommittedRequests.loadHeartbeat,
      ReadCommittedRequests.commitHeartbeat, ReadCommittedRequests.beginSweep,
      ReadCommittedRequests.sweepRow, ReadCommittedRequests.beginSelect,
      ReadCommittedRequests.selectRow, ReadCommittedRequests.commitClaim] at h
    repeat' split at h
    all_goals first
      | (cases h; done)
      | (cases h; exact hg)
      | (cases h; simp [Table.get_modify, hg])

/-- A row that a step adds is the one of its submission, and the other way round. -/
theorem inserts_iff (h : ReadCommittedRequests.step cfg s l = some s')
    (hg : s.tasks.get id = none) :
    ((s'.tasks.get id).map fun slot => ticket slot.row) = some t ↔ Inserts cfg s l id t := by
  by_cases hl : ReadCommittedSteps.Label.handler l = none
  · cases l with
    | submitTask newId taskType payload leaseMinutes retentionHours now createdAt =>
      cases h
      cases hrow : queuedRow cfg now createdAt newId taskType payload leaseMinutes
          retentionHours with
      | error e =>
        simp only [submitStep, hrow, hg, Option.map_none, reduceCtorEq, false_iff]
        rintro ⟨_, _, _, _, _, _, row, hlabel, hok, -⟩
        cases hlabel
        cases hrow.symm.trans hok
      | ok task =>
        obtain rfl := (queuedRow_ok hrow).1
        constructor
        · intro hstored
          simp only [submitStep, hrow] at hstored
          split_ifs at hstored with hfree
          · rw [Table.get_insertNew] at hstored
            split_ifs at hstored with hid
            · subst hid
              refine ⟨_, _, _, _, _, _, task, rfl, hrow, hg, ?_⟩
              rw [← ticket_queuedRow hrow]
              exact (Option.some.inj hstored).symm
            · rw [hg] at hstored
              cases hstored
          · rw [hg] at hstored
            cases hstored
        · rintro ⟨_, _, _, _, _, _, row, hlabel, hok, hfree, rfl⟩
          cases hlabel
          simp only [submitStep, hrow, dif_pos hfree, Table.get_insertNew, if_true,
            Option.map_some, ticket_queuedRow hrow]
    | _ => cases hl
  · rw [absent_of_handler h hl hg, Option.map_none]
    simp only [reduceCtorEq, false_iff]
    rintro ⟨_, _, _, _, _, _, _, rfl, -⟩
    exact absurd rfl hl

/-- All rows agree with their locks. -/
def AllAgree (s : System Json) : Prop := ∀ id slot, s.tasks.get id = some slot → Agrees slot

theorem step_ticket (hs : AllAgree s) (h : ReadCommittedRequests.step cfg s l = some s')
    (id : TaskId) (t : Ticket Json) :
    ((s'.tasks.get id).map fun slot => ticket slot.row) = some t ↔
      ((s.tasks.get id).map fun slot => ticket slot.row) = some t ∨ Inserts cfg s l id t := by
  cases hg : s.tasks.get id with
  | none =>
    rw [inserts_iff h hg]
    simp
  | some slot =>
    have hnew : ¬Inserts cfg s l id t := by
      rintro ⟨_, _, _, _, _, _, _, -, -, hfree, -⟩
      cases hg.symm.trans hfree
    obtain ⟨slot', hg', hmove⟩ := step_slot h hg
    rw [hg', Option.map_some, Option.map_some, (ticket_of_slotMove hmove (hs id slot hg)).1,
      or_iff_left hnew]

theorem step_agrees (hs : AllAgree s) (h : ReadCommittedRequests.step cfg s l = some s') :
    AllAgree s' := by
  intro id slot' hg'
  cases hg : s.tasks.get id with
  | none =>
    obtain ⟨-, -, hlock⟩ := ReadCommittedSteps.step_new_slot h hg hg'
    intro lock hmem
    cases hlock.symm.trans hmem
  | some slot =>
    obtain ⟨other, hother, hmove⟩ := step_slot h hg
    cases hother.symm.trans hg'
    exact (ticket_of_slotMove hmove (hs id slot hg)).2

/-- However the statements of concurrent requests interleave, and whichever of them crash, the
committed rows are exactly those of the committed submissions, with their types, payloads,
leases and times, and so are the versions of them that are not committed yet. -/
theorem concurrent_submissions (cfg : Settings) (ls : List (Label Json)) (s : System Json)
    (hrun : exec (ReadCommittedRequests.step cfg) ReadCommittedRequests.start ls = some s) :
    AllAgree s ∧ ∀ id t, ((s.tasks.get id).map fun slot => ticket slot.row) = some t ↔
      ∃ pre l post m, ls = pre ++ l :: post ∧
        exec (ReadCommittedRequests.step cfg) ReadCommittedRequests.start pre = some m ∧
        Inserts cfg m l id t := by
  have hstart : AllAgree (ReadCommittedRequests.start : System Json) :=
    fun _ _ hnone => by cases hnone
  refine ⟨invariant (fun _ _ _ hs h => step_agrees hs h) hstart hrun, fun id t => ?_⟩
  have hiff := stored_iff (I := AllAgree)
    (fun (s : System Json) id => (s.tasks.get id).map fun slot => ticket slot.row)
    (Inserts cfg) (fun _ _ => False)
    (fun _ _ _ hs h => step_agrees hs h)
    (fun _ _ _ hs h id t => by simpa using step_ticket hs h id t)
    (fun _ _ hnone => by cases hnone) (fun _ => rfl) hrun id t
  simpa using hiff

/-- A claim of the only task is rolled back, another one is committed. -/
def crashedClaim : List (Label (List ℕ)) :=
  let req : ReadCommittedRequests.ClaimRequest := ⟨["image_generation"], "worker-1", none, 10⟩
  [.submitTask "a" "image_generation" [7] none (some 1) 0 1,
    .beginSweep 0 req fun _ => 0, .beginSelect 0 "token-1" fun _ => 0, .selectRow 0, .abort 0,
    .beginSweep 1 req fun _ => 0, .beginSelect 1 "token-2" fun _ => 0, .selectRow 1,
    .commitClaim 1]

theorem concurrent_submissions_crashedClaim :
    ∃ s, exec (ReadCommittedRequests.step {}) ReadCommittedRequests.start crashedClaim = some s ∧
      ((s.tasks.get "a").map fun slot => ticket slot.row) =
        some ⟨"image_generation", [7], 60, 1, hours 1⟩ := by
  refine ⟨_, rfl, ((concurrent_submissions {} crashedClaim _ rfl).2 "a" _).2 ?_⟩
  exact ⟨[], _, _, _, rfl, rfl, ⟨_, _, _, _, _, _, _, rfl, rfl, rfl, rfl⟩⟩

end Concurrent
end TaskQueue.TaskLedger

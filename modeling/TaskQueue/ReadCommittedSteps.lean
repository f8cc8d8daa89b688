import TaskQueue.ReadCommittedRequests

/-!
# What a concurrent step can do

`SlotMove`, `WorkerMove` and `HandlerMove` say once what one step can do to a row and
to a handler, guards included. Nothing later unfolds the step function.
-/

namespace TaskQueue.ReadCommittedSteps
open KeyedTables TaskService WorkerService ClaimLifecycle ReadCommittedRequests StepRuns

variable {Json : Type}

section Phases
variable (task : Task Json)

@[simp] theorem phase_requeueRow (lease : Option Time) (now : Time) :
    phase (requeueRow task) = next (phase task) (.reclaimed lease now) := rfl

/-- The row that a claim writes is what its event says of the transaction. -/
@[simp] theorem phase_claimRow (req : ClaimRequest) (claimToken : String) :
    phase (claimRow req.workerId claimToken req.now req.leaseMinutes task) =
      next (phase task) (req.event claimToken task) := rfl

theorem phase_settleRow (outcome : Outcome Json) (now : Time) (token : Option String) :
    phase (settleRow outcome now task) = next (phase task) (.settled token : RowEvent) := by
  cases outcome <;> rfl

theorem phase_beatTask (req : Heartbeat Json) (now : Time) :
    phase (beatTask req now task) =
      next (phase task)
        (.renewed (some (now + minutes activeLeaseMinutes)) : RowEvent) := by
  cases h : task.status <;> simp [phase, beatTask, h, next]

section Flush
variable [DecidableEq Json] {task}

/-- An outcome that has loaded a claimed row settles whatever row it meets. -/
theorem phase_flush_settleRow {loaded : Task Json} (hs : loaded.status = .claimed)
    (outcome : Outcome Json) (now : Time) (token : Option String) :
    phase (flushTask loaded (settleRow outcome now loaded) task) =
      next (phase task) (.settled token : RowEvent) := by
  have hne : ∀ status, status = .done ∨ status = .failed →
      flushed loaded.status status task.status = status := by
    intro status h
    refine flushed_of_ne ?_ _
    rw [hs]
    rcases h with rfl | rfl <;> decide
  cases outcome with
  | complete result =>
    have hstatus := hne .done (.inl rfl)
    simp only [phase, flushTask, settleRow, hstatus, next]
  | fail error =>
    have hstatus := hne .failed (.inr rfl)
    simp only [phase, flushTask, settleRow, hstatus, next]

/-- A heartbeat writes no column but the lease that the phase of a row shows. -/
theorem phase_flush_beatTask (loaded : Task Json) (req : Heartbeat Json) (now : Time) :
    phase (flushTask loaded (beatTask req now loaded) task) =
      next (phase task) (.renewed (flushed loaded.leaseExpiresAt
        (some (now + minutes activeLeaseMinutes)) task.leaseExpiresAt) : RowEvent) := by
  cases h : task.status <;> simp [phase, flushTask, beatTask, h, next]

end Flush

variable {task}

theorem phase_of_leaseLapsed {taskTypes : List String} {now : Time}
    (h : leaseLapsed taskTypes now task) :
    phase task = .claimed task.claimedBy task.claimToken task.leaseExpiresAt ∧
      Lapsed task.leaseExpiresAt now := by
  obtain ⟨hs, -, hl⟩ := leaseLapsed_iff.1 h
  exact ⟨by simp [phase, hs], hl⟩

theorem phase_of_claimable {taskTypes : List String} (h : claimable taskTypes task) :
    phase task = .queued := by
  simp [phase, (claimable_iff.1 h).1]

theorem owned_phase_iff {holder token : Option String} :
    (phase task).Owned holder token ↔
      task.status = .claimed ∧ task.claimedBy = holder ∧ task.claimToken = token := by
  cases h : task.status <;> simp [phase, h, Phase.Owned]

theorem under_phase_iff {token : Option String} :
    (phase task).Under token ↔ task.status = .claimed ∧ task.claimToken = token := by
  cases h : task.status <;> simp [phase, h, Phase.Under]

end Phases

/-- What one step may do to the slot of a task. -/
inductive SlotMove [DecidableEq Json] (s t : System Json) :
    Label Json → Slot Json → Slot Json → Prop
  | stay (l : Label Json) (slot : Slot Json) : SlotMove s t l slot slot
  | settle {handler : ℕ} {now : Time} {taskId : TaskId} {claimToken : String}
      {outcome : Outcome Json} {task : Task Json} {seen : ℕ} {slot : Slot Json}
      (hh : s.handlers handler = .settling taskId claimToken outcome task seen)
      (hg : s.tasks.get taskId = some slot) (hl : slot.lock = none) :
      SlotMove s t (.commitOutcome handler now) slot
        (slot.commitUpdate (flushTask task (settleRow outcome now task))
          (.settled (some claimToken)))
  | renew {handler : ℕ} {req : Heartbeat Json} {now : Time} {worker : Worker Json}
      {task : Task Json} {seenSessions seen : ℕ} {taskId : TaskId} {slot : Slot Json}
      (hh : s.handlers handler = .beating req now worker (some task) seenSessions seen)
      (hid : req.currentTaskId = some taskId) (hg : s.tasks.get taskId = some slot)
      (hl : slot.lock = none) :
      SlotMove s t (.commitHeartbeat handler) slot
        (slot.commitUpdate (flushTask task (beatTask req now task))
          (.renewed (flushed task.leaseExpiresAt (some (now + minutes activeLeaseMinutes))
            slot.row.leaseExpiresAt)))
  | sweep {handler : ℕ} {req : ClaimRequest} {slot : Slot Json} (hf : slot.free handler)
      (hl : leaseLapsed req.taskTypes req.now (slot.visible handler)) :
      SlotMove s t (.sweepRow handler) slot
        (slot.write handler requeueRow
          (.reclaimed (slot.visible handler).leaseExpiresAt req.now))
  | claim {handler : ℕ} {req : ClaimRequest} {claimToken : String} {todo : List TaskId}
      {slot : Slot Json} (hh : s.handlers handler = .selecting req claimToken todo)
      (ht : t.handlers handler = .claimed) (hf : slot.free handler)
      (hc : claimable req.taskTypes (slot.visible handler)) :
      SlotMove s t (.selectRow handler) slot
        (slot.write handler (claimRow req.workerId claimToken req.now req.leaseMinutes)
          (req.event claimToken (slot.visible handler)))
  | publish (handler : ℕ) (slot : Slot Json) :
      SlotMove s t (.commitClaim handler) slot (slot.publish handler)
  | release (handler : ℕ) (slot : Slot Json) :
      SlotMove s t (.abort handler) slot (slot.release handler)

/-- What one step may do to a handler. -/
inductive HandlerMove (s t : System Json) : Handler Json → Handler Json → Prop
  | stay (h : Handler Json) : HandlerMove s t h h
  | idle (h : Handler Json) : HandlerMove s t h .idle
  | claimed (h : Handler Json) : HandlerMove s t h .claimed
  | sweeping (h : Handler Json) (req : ClaimRequest) (todo : List TaskId) :
      HandlerMove s t h (.sweeping req todo)
  | registering (h : Handler Json) (req : Registration Json) (now : Time)
      (worker : Option (Worker Json)) : HandlerMove s t h (.registering req now worker)
  | settling {taskId : TaskId} {claimToken : String} {slot : Slot Json} (outcome : Outcome Json)
      (hg : s.tasks.get taskId = some slot) (hc : checkClaim taskId claimToken slot.row = .ok ()) :
      HandlerMove s t .idle
        (.settling taskId claimToken outcome slot.row slot.history.length)
  | beating {req : Heartbeat Json} {worker : WorkerSlot Json} (now : Time)
      (hw : s.workers.get req.workerId = some worker)
      (hc : checkLoads req (some worker.row)
        (fun taskId => (s.tasks.get taskId).map Slot.row) = .ok ()) :
      HandlerMove s t .idle (.beating req now worker.row
        (req.currentTaskId.bind fun taskId => (s.tasks.get taskId).map Slot.row)
        (s.seenSessions req.workerId) (s.seenHistory req.currentTaskId))
  | selecting {claimToken : String} (req : ClaimRequest) (todo : List TaskId)
      (hf : claimToken ∉ s.tokens) (ht : t.tokens = claimToken :: s.tokens) :
      HandlerMove s t (.sweeping req []) (.selecting req claimToken todo)
  | skip (req : ClaimRequest) (claimToken : String) (todo todo' : List TaskId) :
      HandlerMove s t (.selecting req claimToken todo) (.selecting req claimToken todo')

def Label.handler : Label Json → Option ℕ
  | .submitTask .. => none
  | .loadOutcome handler _ _ _ => some handler
  | .commitOutcome handler _ => some handler
  | .loadRegister handler _ _ => some handler
  | .commitRegister handler => some handler
  | .loadHeartbeat handler _ _ => some handler
  | .commitHeartbeat handler => some handler
  | .beginSweep handler _ _ => some handler
  | .sweepRow handler => some handler
  | .beginSelect handler _ _ => some handler
  | .selectRow handler => some handler
  | .commitClaim handler => some handler
  | .abort handler => some handler

/-- What one step may do to the table of tasks. -/
inductive TableMove [DecidableEq Json] (s t : System Json) (l : Label Json) : Prop
  | same (ht : t.tasks = s.tasks)
  | insert (slot : Slot Json) (hn : s.tasks.get slot.id = none)
      (ht : t.tasks = s.tasks.insertNew slot hn) (hq : phase slot.row = .queued)
      (hh : slot.history = [.submitted]) (hl : slot.lock = none)
  | modify {taskId : TaskId} {slot : Slot Json} (f : Slot Json → Slot Json)
      (hf : ∀ slot, (f slot).id = slot.id) (hg : s.tasks.get taskId = some slot)
      (ht : t.tasks = s.tasks.modify taskId f hf) (hm : SlotMove s t l slot (f slot))
  | mapRows (f : Slot Json → Slot Json) (hf : ∀ slot, (f slot).id = slot.id)
      (ht : t.tasks = s.tasks.mapRows f hf) (hm : ∀ slot, SlotMove s t l slot (f slot))

@[simp] theorem setHandler_tasks (s : System Json) (handler : ℕ) (h : Handler Json) :
    (s.setHandler handler h).tasks = s.tasks := rfl

@[simp] theorem setHandler_workers (s : System Json) (handler : ℕ) (h : Handler Json) :
    (s.setHandler handler h).workers = s.workers := rfl

@[simp] theorem setHandler_tokens (s : System Json) (handler : ℕ) (h : Handler Json) :
    (s.setHandler handler h).tokens = s.tokens := rfl

@[simp] theorem setHandler_self (s : System Json) (handler : ℕ) (h : Handler Json) :
    (s.setHandler handler h).handlers handler = h := by
  simp [System.setHandler]

theorem setHandler_of_ne (s : System Json) {handler i : ℕ} (h : Handler Json)
    (hi : i ≠ handler) : (s.setHandler handler h).handlers i = s.handlers i := by
  simp [System.setHandler, hi]

section Submit
variable (s : System Json) (cfg : Settings) (id : TaskId) (taskType : String) (payload : Json)
  (leaseMinutes retentionHours : Option Int) (now createdAt : Time)

/-- A submission is refused, or it adds a queued row. -/
theorem submitStep_tasks :
    (submitStep s cfg id taskType payload leaseMinutes retentionHours now createdAt).tasks =
      s.tasks ∨ ∃ task, ∃ hn : s.tasks.get task.id = none, phase task = .queued ∧
        (submitStep s cfg id taskType payload leaseMinutes retentionHours now createdAt).tasks =
          s.tasks.insertNew ⟨task.id, task, [.submitted], none⟩ hn := by
  simp only [submitStep]
  split
  · exact .inl rfl
  · next task hq =>
    by_cases hn : s.tasks.get task.id = none
    · rw [dif_pos hn]
      have hqueued : phase task = .queued := by simp [phase, (queuedRow_ok hq).2.1]
      exact .inr ⟨task, hn, hqueued, rfl⟩
    · rw [dif_neg hn]
      exact .inl rfl

/-- A submission leaves the workers, the handlers and the tokens alone. -/
theorem submitStep_frame :
    (submitStep s cfg id taskType payload leaseMinutes retentionHours now createdAt).workers =
      s.workers ∧
    (submitStep s cfg id taskType payload leaseMinutes retentionHours now createdAt).handlers =
      s.handlers ∧
    (submitStep s cfg id taskType payload leaseMinutes retentionHours now createdAt).tokens =
      s.tokens := by
  simp only [submitStep]
  split
  · exact ⟨rfl, rfl, rfl⟩
  · split_ifs <;> exact ⟨rfl, rfl, rfl⟩

end Submit

section Steps
variable [DecidableEq Json] [EmptyCollection Json] {cfg : Settings} {s t : System Json}
  {l : Label Json}

theorem step_table (h : step cfg s l = some t) : TableMove s t l := by
  cases l with
  | submitTask newId taskType payload leaseMinutes retentionHours now createdAt =>
    cases h
    rcases submitStep_tasks s cfg newId taskType payload leaseMinutes retentionHours now
      createdAt with ht | ⟨task, hn, hq, ht⟩
    · exact .same ht
    · exact .insert _ hn ht hq rfl rfl
  | loadOutcome handler taskId claimToken outcome =>
    simp only [step, loadOutcome] at h
    split at h
    · split at h <;> cases h <;> exact .same rfl
    · cases h
      exact .same rfl
    · cases h
  | commitOutcome handler now =>
    simp only [step, commitOutcome] at h
    split at h
    · rename_i taskId claimToken outcome task seen hh
      split at h
      · cases h
      · rename_i slot hg
        split_ifs at h with hl
        cases h
        exact .modify _ (Slot.commitUpdate_id _ _) hg rfl (.settle hh hg (by simpa using hl))
    · cases h
  | loadRegister handler req now =>
    simp only [step, loadRegister] at h
    split at h
    · split at h <;> cases h <;> exact .same rfl
    · cases h
  | commitRegister handler =>
    simp only [step, commitRegister] at h
    split at h
    · cases h
      exact .same rfl
    · split_ifs at h <;> cases h <;> exact .same rfl
    · cases h
  | loadHeartbeat handler req now =>
    simp only [step, loadHeartbeat] at h
    split at h
    · split at h
      · cases h
        exact .same rfl
      · split at h <;> cases h <;> exact .same rfl
    · cases h
  | commitHeartbeat handler =>
    simp only [step, commitHeartbeat] at h
    split at h
    · rename_i req now worker task seenSessions seen hh
      split at h
      · rename_i taskId task hid
        split at h
        · cases h
        · rename_i slot hg
          split_ifs at h with hl hsame
          · cases h
            exact .same rfl
          · cases h
            exact .modify _ (Slot.commitUpdate_id _ _) hg rfl
              (.renew hh hid hg (by simpa using hl))
      · cases h
        exact .same rfl
    · cases h
  | beginSweep handler req rank =>
    simp only [step, beginSweep] at h
    split at h
    · split_ifs at h <;> cases h <;> exact .same rfl
    · cases h
  | sweepRow handler =>
    simp only [step, sweepRow] at h
    split at h
    · rename_i req taskId todo hh
      split at h
      · cases h
        exact .same rfl
      · rename_i slot hg
        split_ifs at h with hf hl
        · cases h
          exact .modify _ (Slot.write_id handler _ _) hg rfl (.sweep hf hl)
        · cases h
          exact .same rfl
    · cases h
  | beginSelect handler claimToken rank =>
    simp only [step, beginSelect] at h
    split at h
    · split_ifs at h
      cases h
      exact .same rfl
    · cases h
  | selectRow handler =>
    simp only [step, selectRow] at h
    split at h
    · cases h
      exact .same rfl
    · rename_i req claimToken taskId todo hh
      split at h
      · cases h
        exact .same rfl
      · rename_i slot hg
        split_ifs at h with hf
        · cases h
          obtain ⟨hf, hc⟩ := Bool.and_eq_true_iff.1 hf
          exact .modify _ (Slot.write_id handler _ _) hg rfl
            (.claim hh (setHandler_self s handler .claimed) hf hc)
        · cases h
          exact .same rfl
    · cases h
  | commitClaim handler =>
    simp only [step, commitClaim] at h
    split at h
    · cases h
      exact .mapRows _ (Slot.publish_id handler) rfl (.publish handler)
    · cases h
  | abort handler =>
    cases h
    exact .mapRows _ (Slot.release_id handler) rfl (.release handler)

/-- The slot of a task stays and moves in one of the ways above. -/
theorem step_slot (h : step cfg s l = some t) {id : TaskId} {slot : Slot Json}
    (hg : s.tasks.get id = some slot) :
    ∃ slot', t.tasks.get id = some slot' ∧ SlotMove s t l slot slot' := by
  cases step_table h with
  | same ht => exact ⟨slot, by rw [ht, hg], .stay l slot⟩
  | insert added hn ht hq hh hl =>
    have hne : id ≠ added.id := by
      intro heq
      rw [heq, hn] at hg
      cases hg
    exact ⟨slot, by rw [ht, Table.get_insertNew, if_neg hne, hg], .stay l slot⟩
  | @modify taskId found f hf hfound ht hm =>
    by_cases hid : id = taskId
    · subst hid
      obtain rfl : slot = found := Option.some.inj (hg.symm.trans hfound)
      exact ⟨f slot, by rw [ht, Table.get_modify_self, hg]; rfl, hm⟩
    · exact ⟨slot, by rw [ht, Table.get_modify_of_ne _ _ hf hid, hg], .stay l slot⟩
  | mapRows f hf ht hm => exact ⟨f slot, by rw [ht, Table.get_mapRows, hg]; rfl, hm slot⟩

/-- A slot that appears is the one of a submission. -/
theorem step_new_slot (h : step cfg s l = some t) {id : TaskId} {slot : Slot Json}
    (hg : s.tasks.get id = none) (ht : t.tasks.get id = some slot) :
    phase slot.row = .queued ∧ slot.history = [.submitted] ∧ slot.lock = none := by
  cases step_table h with
  | same he =>
    rw [he, hg] at ht
    cases ht
  | insert added hn he hq hh hl =>
    rw [he, Table.get_insertNew, hg] at ht
    split_ifs at ht
    cases ht
    exact ⟨hq, hh, hl⟩
  | modify f hf hfound he hm =>
    rw [he, Table.get_modify, hg] at ht
    simp at ht
  | mapRows f hf he hm =>
    rw [he, Table.get_mapRows, hg] at ht
    cases ht

/-- A step leaves every handler but its own as it was. -/
theorem step_handler_of_ne (h : step cfg s l = some t) {i : ℕ} (hi : Label.handler l ≠ some i) :
    t.handlers i = s.handlers i := by
  have hset : ∀ {j : ℕ} (h' : Handler Json), some j ≠ some i →
      (s.setHandler j h').handlers i = s.handlers i := by
    intro j h' hj
    exact setHandler_of_ne s h' fun he => hj (congrArg some he.symm)
  cases l with
  | submitTask newId taskType payload leaseMinutes retentionHours now createdAt =>
    cases h
    rw [(submitStep_frame s cfg newId taskType payload leaseMinutes retentionHours now
      createdAt).2.1]
  | abort handler =>
    cases h
    exact hset .idle hi
  | _ =>
    simp only [step, loadOutcome, commitOutcome, loadRegister, commitRegister, loadHeartbeat,
      commitHeartbeat, beginSweep, sweepRow, beginSelect, selectRow, commitClaim] at h
    repeat' split at h
    all_goals first
      | (cases h; done)
      | (cases h; rfl)
      | (cases h; exact hset _ hi)

/-- The handler of a step moves in one of the ways above. -/
theorem step_handler (h : step cfg s l = some t) {i : ℕ} (hi : Label.handler l = some i) :
    HandlerMove s t (s.handlers i) (t.handlers i) := by
  cases l with
  | submitTask newId taskType payload leaseMinutes retentionHours now createdAt => cases hi
  | loadOutcome handler taskId claimToken outcome =>
    cases hi
    simp only [step, loadOutcome] at h
    split at h
    · rename_i hh hg
      split at h
      · rename_i hc
        cases h
        rw [setHandler_self, hh]
        exact .settling outcome hg hc
      · cases h
        exact .stay _
    · cases h
      exact .stay _
    · cases h
  | commitOutcome handler now =>
    cases hi
    simp only [step, commitOutcome] at h
    split at h
    · split at h
      · cases h
      · split_ifs at h
        cases h
        simp only [setHandler_self]
        exact .idle _
    · cases h
  | loadRegister handler req now =>
    cases hi
    simp only [step, loadRegister] at h
    split at h
    · split at h
      · cases h
        rw [setHandler_self]
        exact .registering _ _ _ _
      · cases h
        exact .stay _
    · cases h
  | commitRegister handler =>
    cases hi
    simp only [step, commitRegister] at h
    split at h
    · cases h
      simp only [setHandler_self]
      exact .idle _
    · split_ifs at h <;> cases h <;> simp only [setHandler_self] <;> exact .idle _
    · cases h
  | loadHeartbeat handler req now =>
    cases hi
    simp only [step, loadHeartbeat] at h
    split at h
    · rename_i hh
      split at h
      · cases h
        exact .stay _
      · rename_i worker hw
        split at h
        · rename_i hc
          cases h
          rw [setHandler_self, hh]
          exact .beating now hw hc
        · cases h
          exact .stay _
    · cases h
  | commitHeartbeat handler =>
    cases hi
    simp only [step, commitHeartbeat] at h
    split at h
    · split at h
      · split at h
        · cases h
        · split_ifs at h <;> cases h <;> simp only [setHandler_self] <;> exact .idle _
      · cases h
        simp only [setHandler_self]
        exact .idle _
    · cases h
  | beginSweep handler req rank =>
    cases hi
    simp only [step, beginSweep] at h
    split at h
    · split_ifs at h
      · cases h
        exact .stay _
      · cases h
        rw [setHandler_self]
        exact .sweeping _ _ _
    · cases h
  | sweepRow handler =>
    cases hi
    simp only [step, sweepRow] at h
    split at h
    · split at h
      · cases h
        rw [setHandler_self]
        exact .sweeping _ _ _
      · split_ifs at h <;> cases h <;> simp only [setHandler_self] <;> exact .sweeping _ _ _
    · cases h
  | beginSelect handler claimToken rank =>
    cases hi
    simp only [step, beginSelect] at h
    split at h
    · rename_i req hh
      split_ifs at h with hf
      cases h
      rw [hh]
      simp only [setHandler_self]
      exact .selecting req _ hf rfl
    · cases h
  | selectRow handler =>
    cases hi
    simp only [step, selectRow] at h
    split at h
    · cases h
      rw [setHandler_self]
      exact .claimed _
    · rename_i req claimToken taskId todo hh
      split at h
      · cases h
        rw [setHandler_self, hh]
        exact .skip req claimToken _ todo
      · split_ifs at h
        · cases h
          simp only [setHandler_self]
          exact .claimed _
        · cases h
          rw [setHandler_self, hh]
          exact .skip req claimToken _ todo
    · cases h
  | commitClaim handler =>
    cases hi
    simp only [step, commitClaim] at h
    split at h
    · cases h
      simp only [setHandler_self]
      exact .idle _
    · cases h
  | abort handler =>
    cases hi
    cases h
    simp only [ReadCommittedRequests.abort, setHandler_self]
    exact .idle _

theorem step_tokens (h : step cfg s l = some t) : s.tokens ⊆ t.tokens := by
  cases l with
  | submitTask newId taskType payload leaseMinutes retentionHours now createdAt =>
    cases h
    have htokens := (submitStep_frame s cfg newId taskType payload leaseMinutes retentionHours
      now createdAt).2.2
    exact htokens.symm ▸ List.Subset.refl _
  | abort handler =>
    cases h
    exact List.Subset.refl _
  | _ =>
    simp only [step, loadOutcome, commitOutcome, loadRegister, commitRegister, loadHeartbeat,
      commitHeartbeat, beginSweep, sweepRow, beginSelect, selectRow, commitClaim] at h
    repeat' split at h
    all_goals first
      | (cases h; done)
      | (cases h; exact List.Subset.refl _)
      | (cases h; exact List.subset_cons_self _ _)

/-- What one step may do to the slot of a worker. -/
inductive WorkerMove (s : System Json) : Label Json → WorkerSlot Json → WorkerSlot Json → Prop
  | stay (l : Label Json) (slot : WorkerSlot Json) : WorkerMove s l slot slot
  | register {handler : ℕ} {req : Registration Json} {now : Time} {loaded : Worker Json}
      {slot : WorkerSlot Json} (hh : s.handlers handler = .registering req now (some loaded))
      (hg : s.workers.get req.workerId = some slot) :
      WorkerMove s (.commitRegister handler) slot (slot.commitRegister req now loaded)
  | beat {handler : ℕ} {req : Heartbeat Json} {now : Time} {loaded : Worker Json}
      {task : Option (Task Json)} {seenSessions seen : ℕ} {slot : WorkerSlot Json}
      (hh : s.handlers handler = .beating req now loaded task seenSessions seen)
      (hg : s.workers.get req.workerId = some slot) :
      WorkerMove s (.commitHeartbeat handler) slot (slot.commitBeat req now loaded)

theorem moved_of_modify {s : System Json} {l : Label Json} {workerId id : String}
    {f : WorkerSlot Json → WorkerSlot Json} {slot : WorkerSlot Json}
    (hf : ∀ slot, (f slot).id = slot.id) (hg : s.workers.get id = some slot)
    (hm : id = workerId → WorkerMove s l slot (f slot)) :
    ∃ slot', (s.workers.modify workerId f hf).get id = some slot' ∧ WorkerMove s l slot slot' := by
  rw [Table.get_modify, hg]
  by_cases hid : id = workerId
  · exact ⟨f slot, by simp [hid], hm hid⟩
  · exact ⟨slot, by simp [hid], .stay l slot⟩

/-- The slot of a worker stays and moves in one of the ways above. -/
theorem step_worker (h : step cfg s l = some t) {id : String} {slot : WorkerSlot Json}
    (hg : s.workers.get id = some slot) :
    ∃ slot', t.workers.get id = some slot' ∧ WorkerMove s l slot slot' := by
  cases l with
  | submitTask newId taskType payload leaseMinutes retentionHours now createdAt =>
    cases h
    refine ⟨slot, ?_, .stay _ slot⟩
    rw [(submitStep_frame s cfg newId taskType payload leaseMinutes retentionHours now
      createdAt).1]
    exact hg
  | abort handler =>
    cases h
    exact ⟨slot, hg, .stay _ slot⟩
  | commitRegister handler =>
    simp only [step, commitRegister] at h
    split at h
    · rename_i req now loaded hh
      cases h
      apply moved_of_modify (WorkerSlot.commitRegister_id _ _ _) hg
      intro hid
      exact .register hh (hid ▸ hg)
    · rename_i req now hh
      split_ifs at h with hn
      · cases h
        refine ⟨slot, ?_, .stay _ slot⟩
        have hne : id ≠ req.workerId := by
          intro heq
          rw [heq, hn] at hg
          cases hg
        simp only [Table.get_insertNew]
        rw [if_neg hne, hg]
      · cases h
        exact ⟨slot, hg, .stay _ slot⟩
    · cases h
  | commitHeartbeat handler =>
    simp only [step, commitHeartbeat] at h
    split at h
    · rename_i req now loaded task seenSessions seen hh
      have hbeat : ∃ slot', (s.workers.modify req.workerId (WorkerSlot.commitBeat req now loaded)
          (WorkerSlot.commitBeat_id req now loaded)).get id = some slot' ∧
          WorkerMove s (.commitHeartbeat handler) slot slot' := by
        apply moved_of_modify (WorkerSlot.commitBeat_id _ _ _) hg
        intro hid
        exact .beat hh (hid ▸ hg)
      split at h
      · split at h
        · cases h
        · split_ifs at h <;> cases h <;> exact hbeat
      · cases h
        exact hbeat
    · cases h
  | _ =>
    simp only [step, loadOutcome, commitOutcome, loadRegister, loadHeartbeat,
      beginSweep, sweepRow, beginSelect, selectRow, commitClaim] at h
    repeat' split at h
    all_goals first
      | (cases h; done)
      | (cases h; exact ⟨slot, hg, .stay _ slot⟩)

theorem step_new_worker (h : step cfg s l = some t) {id : String} {slot : WorkerSlot Json}
    (hg : s.workers.get id = none) (ht : t.workers.get id = some slot) :
    slot.sessions = [slot.row.sessionId] := by
  have hkeep : ∀ {t' : System Json}, t'.workers = s.workers →
      t'.workers.get id = some slot → slot.sessions = [slot.row.sessionId] := by
    intro t' he hs
    rw [he, hg] at hs
    cases hs
  cases l with
  | submitTask newId taskType payload leaseMinutes retentionHours now createdAt =>
    cases h
    exact hkeep (submitStep_frame s cfg newId taskType payload leaseMinutes retentionHours now
      createdAt).1 ht
  | abort handler =>
    cases h
    exact hkeep rfl ht
  | commitRegister handler =>
    simp only [step, commitRegister] at h
    split at h
    · cases h
      simp [Table.get_modify, hg] at ht
    · split_ifs at h with hn
      · cases h
        simp only [Table.get_insertNew, hg] at ht
        split_ifs at ht
        cases ht
        rfl
      · cases h
        exact hkeep rfl ht
    · cases h
  | commitHeartbeat handler =>
    simp only [step, commitHeartbeat] at h
    repeat' split at h
    all_goals first
      | (cases h; done)
      | (cases h; simp [Table.get_modify, hg] at ht)
  | _ =>
    simp only [step, loadOutcome, commitOutcome, loadRegister, loadHeartbeat,
      beginSweep, sweepRow, beginSelect, selectRow, commitClaim] at h
    repeat' split at h
    all_goals first
      | (cases h; done)
      | (cases h; exact hkeep rfl ht)

end Steps
end TaskQueue.ReadCommittedSteps

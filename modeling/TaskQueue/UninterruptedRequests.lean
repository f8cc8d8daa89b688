import TaskQueue.RequestProgress
import TaskQueue.LeaseRefinement

/-!
# Requests that nothing interrupts

The model of concurrent requests runs each service function in steps. When the steps of a
request follow each other, they do what the function does alone on the tables, and they commit
the events that its response shows.
-/

namespace TaskQueue.UninterruptedRequests
open KeyedTables TaskService WorkerService SerialRequests ClaimNext StepRuns ClaimLifecycle
open ReadCommittedRequests (System Slot WorkerSlot Lock ClaimRequest Handler Label RowEvent phase
  flushTask flushTask_loaded flushWorker_loaded flushed_loaded lapsedIds claimableIds)
open ReadCommittedSteps LeaseRefinement

variable {Json : Type}

section Scans

/-- The first of the rows in order is the least. -/
theorem head_insertionSort {α : Type} (f : α → Time) (rows : List α) :
    (rows.insertionSort fun a b => f a ≤ f b).head? = rows.minOn? f := by
  induction rows with
  | nil => rfl
  | cons a rows ih =>
    rw [List.insertionSort_cons, List.minOn?_cons, ← ih]
    cases rows.insertionSort fun a b => f a ≤ f b with
    | nil => rfl
    | cons b sorted =>
      simp only [List.orderedInsert_cons, List.head?_cons, Option.elim_some, minOn]
      split <;> rfl

/-- The place of a row in a table. -/
def place (tasks : TaskTable Json) (id : TaskId) : ℕ := (tasks.rows.map Task.id).idxOf id

theorem place_sorted (tasks : TaskTable Json) :
    tasks.rows.Pairwise fun a b => place tasks a.id < place tasks b.id := by
  rw [List.pairwise_iff_getElem]
  intro i j hi hj hij
  have hindex : ∀ k (hk : k < tasks.rows.length), place tasks tasks.rows[k].id = k := by
    intro k hk
    have h := tasks.nodup.idxOf_getElem k (by simpa using hk)
    simpa [place] using h
  rwa [hindex i hi, hindex j hj]

theorem place_inj {tasks : TaskTable Json} {a b : Task Json} (ha : a ∈ tasks.rows)
    (hb : b ∈ tasks.rows) (h : place tasks a.id = place tasks b.id) : a = b := by
  have hid : a.id = b.id := (List.idxOf_inj (List.mem_map_of_mem ha)).1 h
  exact List.inj_on_of_nodup_map tasks.nodup ha hb hid

/-- A scan in the order of a table meets its rows. -/
theorem snapshot_eq {s : System Json} {handler : ℕ} {tasks : TaskTable Json}
    (hview : ∀ id, (s.tasks.get id).map (Slot.visible handler) = tasks.get id) :
    s.snapshot handler (place tasks) = tasks.rows := by
  let scan := s.tasks.rows.insertionSort fun a b => place tasks a.id ≤ place tasks b.id
  have hperm : scan.Perm s.tasks.rows := List.perm_insertionSort _ _
  have hget : ∀ slot ∈ s.tasks.rows, tasks.get slot.id = some (slot.visible handler) := by
    intro slot hslot
    rw [← hview, Table.get_of_mem hslot]
    rfl
  have hids : (scan.map (Slot.visible handler)).map Task.id = scan.map Slot.id := by
    rw [List.map_map]
    refine List.map_congr_left fun slot hslot => ?_
    have hkey := Table.key_of_get (hget slot (hperm.mem_iff.1 hslot))
    exact hkey
  have hnodup : (scan.map (Slot.visible handler)).Nodup := by
    refine List.Nodup.of_map Task.id ?_
    rw [hids]
    exact (hperm.map Slot.id).nodup_iff.2 s.tasks.nodup
  have hsame : (scan.map (Slot.visible handler)).Perm tasks.rows := by
    refine (List.perm_ext_iff_of_nodup hnodup (List.Nodup.of_map Task.id tasks.nodup)).2 ?_
    intro task
    constructor
    · intro hmem
      obtain ⟨slot, hslot, rfl⟩ := List.mem_map.1 hmem
      exact Table.mem_of_get (hget slot (hperm.mem_iff.1 hslot))
    · intro hmem
      have hsome := Table.get_of_mem hmem
      rw [← hview] at hsome
      obtain ⟨slot, hslot, rfl⟩ := Option.map_eq_some_iff.1 hsome
      exact List.mem_map_of_mem (hperm.mem_iff.2 (Table.mem_of_get hslot))
  have hsorted : (scan.map (Slot.visible handler)).Pairwise
      fun a b => place tasks a.id ≤ place tasks b.id := by
    have : Std.Total fun a b : Slot Json => place tasks a.id ≤ place tasks b.id :=
      ⟨fun a b => le_total _ _⟩
    have : IsTrans (Slot Json) fun a b => place tasks a.id ≤ place tasks b.id :=
      ⟨fun a b c => le_trans⟩
    have hslots : scan.Pairwise fun a b => place tasks a.id ≤ place tasks b.id :=
      List.pairwise_insertionSort _ _
    have hmapped : ((scan.map (Slot.visible handler)).map Task.id).Pairwise
        fun a b => place tasks a ≤ place tasks b := by
      rw [hids, List.pairwise_map]
      exact hslots
    rwa [List.pairwise_map] at hmapped
  refine hsame.eq_of_pairwise ?_ hsorted ((place_sorted tasks).imp le_of_lt)
  intro a b ha hb hab hba
  exact place_inj (hsame.mem_iff.1 ha) hb (le_antisymm hab hba)

end Scans

/-- The state of the concurrent model in which no request is in progress and the tables are
those of the serial model. Each row brings the history of its task. -/
structure Represents (s : System Json) (db : Db Json) (history : TaskId → List RowEvent) :
    Prop where
  handlers : s.handlers = fun _ => .idle
  tasks : ∀ id, s.tasks.get id = (db.tasks.get id).map fun task => ⟨id, task, history id, none⟩
  workers : ∀ id, (s.workers.get id).map WorkerSlot.row = db.workers.get id

section Represents
variable {s : System Json} {db : Db Json} {history : TaskId → List RowEvent}

theorem Represents.rows (h : Represents s db history) (id : TaskId) :
    (s.tasks.get id).map Slot.row = db.tasks.get id := by
  rw [h.tasks, Option.map_map]
  exact Option.map_id'

end Represents

/-- The steps are those of one request at a time, which never wait. -/
abbrev Alone (ls : List (Label Json)) : Prop :=
  ∀ l ∈ ls, Label.handler l = none ∨ Label.handler l = some 0

section Requests
variable [DecidableEq Json] [EmptyCollection Json] {cfg : Settings} {s : System Json}
  {db : Db Json}  {history : TaskId → List RowEvent}

/-- The request, run in steps, leads to the tables that it leaves and to the histories that its
response shows. -/
def RunsAlone (cfg : Settings) (s : System Json) (db : Db Json)
    (history : TaskId → List RowEvent) (r : Timed Json) : Prop :=
  ∃ ls t, exec (ReadCommittedRequests.step cfg) s ls = some t ∧ Alone ls ∧
    Represents t (handle cfg db r).1 (fun id => history id ++ eventsOf cfg id db r) ∧
    ∀ token ∈ t.tokens, token ∈ s.tokens ∨ drawn r.request = some token

omit [DecidableEq Json] in
theorem eventsOf_rejected {r : Timed Json} {e : ServiceError}
    (h : (handle cfg db r).2 = .rejected e) (id : TaskId) : eventsOf cfg id db r = [] := by
  unfold eventsOf
  split <;> simp only [h]

/-- A request that is refused takes one step, which changes nothing. -/
theorem RunsAlone.refused (h : Represents s db history) {r : Timed Json} {e : ServiceError}
    (hr : handle cfg db r = (db, .rejected e)) {l : Label Json}
    (hl : Label.handler l = none ∨ Label.handler l = some 0)
    (hstep : ReadCommittedRequests.step cfg s l = some s) : RunsAlone cfg s db history r := by
  refine ⟨[l], s, exec_cons_of_step hstep [], by simpa [Alone] using hl, ?_, fun _ ht => .inl ht⟩
  have hevents : ∀ id, eventsOf cfg id db r = [] := eventsOf_rejected (by rw [hr])
  simpa only [hr, hevents, List.append_nil] using h

theorem submitTask_alone (h : Represents s db history) {now later : Time} {id : TaskId}
    (hnew : history id = []) (taskType : String) (payload : Json)
    (leaseMinutes retentionHours : Option Int) :
    RunsAlone cfg s db history
      ⟨now, later, .submitTask id taskType payload leaseMinutes retentionHours⟩ := by
  let l : Label Json :=
    .submitTask id taskType payload leaseMinutes retentionHours now later
  cases hsub : submitTask cfg now later id db.tasks taskType payload leaseMinutes
      retentionHours with
  | error e =>
    refine .refused h (l := l) (e := e) (by simp only [handle, hsub]) (.inl rfl) ?_
    simp only [l, ReadCommittedRequests.step, ReadCommittedRequests.submitStep, Option.some.injEq]
    cases hrow : queuedRow cfg now later id taskType payload leaseMinutes retentionHours with
    | error _ => rfl
    | ok task =>
      dsimp only
      split
      next hnone =>
        have hdb : db.tasks.get task.id = none := by rw [← h.rows, hnone]; rfl
        rw [submitTask_ok_iff.2 ⟨task, hrow, hdb, rfl⟩] at hsub
        cases hsub
      next => rfl
  | ok p =>
    obtain ⟨task, hrow, hdb, rfl⟩ := submitTask_ok_iff.1 hsub
    obtain rfl := (queuedRow_ok hrow).1
    have hnone : s.tasks.get task.id = none := by rw [h.tasks, hdb]; rfl
    have hstep : ReadCommittedRequests.step cfg s l = some { s with
        tasks := s.tasks.insertNew ⟨task.id, task, [.submitted], none⟩ hnone } := by
      simp only [l, ReadCommittedRequests.step, ReadCommittedRequests.submitStep, hrow,
        dif_pos hnone]
    refine ⟨[l], _, exec_cons_of_step hstep [], by simp [Alone, l, Label.handler], ?_,
      fun _ ht => .inl ht⟩
    simp only [handle, hsub, eventsOf]
    refine ⟨h.handlers, fun id => ?_, h.workers⟩
    rw [Table.get_insertNew, Table.get_insertNew]
    by_cases hid : id = task.id
    · subst hid
      simp only [if_true, hnew, Option.map_some, List.nil_append]
    · rw [if_neg hid, if_neg hid, h.tasks]
      simp only [if_neg (Ne.symm hid), List.append_nil]

omit [DecidableEq Json] [EmptyCollection Json] in
/-- After a commit no request is in progress again. -/
theorem idle_again (h : Represents s db history) (hd : Handler Json) :
    ((s.setHandler 0 hd).setHandler 0 .idle).handlers = fun _ => .idle := by
  simp [System.setHandler, h.handlers]

theorem settleTask_alone (h : Represents s db history) {now later : Time} {taskId : TaskId}
    {claimToken : String} (outcome : Outcome Json) :
    RunsAlone cfg s db history ⟨now, later, outcomeRequest taskId claimToken outcome⟩ := by
  let r : Timed Json := ⟨now, later, outcomeRequest taskId claimToken outcome⟩
  have haccepted : ∀ p, settleTask now db.tasks taskId claimToken outcome = .ok p →
      handle cfg db r = ({ db with tasks := p.1 }, .task p.2) := by
    intro p hp
    cases outcome <;> simp only [r, handle, outcomeRequest, completeTask, failTask, hp]
  have hrefused : ∀ e, settleTask now db.tasks taskId claimToken outcome = .error e →
      handle cfg db r = (db, .rejected e) := by
    intro e he
    cases outcome <;> simp only [r, handle, outcomeRequest, completeTask, failTask, he]
  have hidle : s.handlers 0 = .idle := by rw [h.handlers]
  let load : Label Json := .loadOutcome 0 taskId claimToken outcome
  cases hg : db.tasks.get taskId with
  | none =>
    have hnone : s.tasks.get taskId = none := by rw [h.tasks, hg]; rfl
    refine .refused h (l := load) (hrefused _ (by rw [settleTask, getTask, hg]; rfl)) (.inr rfl) ?_
    simp only [load, ReadCommittedRequests.step, ReadCommittedRequests.loadOutcome, hidle, hnone]
  | some task =>
    have hslot : s.tasks.get taskId = some ⟨taskId, task, history taskId, none⟩ := by
      rw [h.tasks, hg]; rfl
    cases hc : checkClaim taskId claimToken task with
    | error e =>
      refine .refused h (l := load) (e := e) ?_ (.inr rfl) ?_
      · refine hrefused e ?_
        rw [settleTask, getTask, hg]
        simp only [bind, Except.bind, hc]
      · simp only [load, ReadCommittedRequests.step, ReadCommittedRequests.loadOutcome, hidle,
          hslot, hc]
    | ok _ =>
      have hclaim := checkClaim_ok_iff.1 hc
      have hok : settleTask now db.tasks taskId claimToken outcome = .ok _ :=
        settleTask_ok_iff.2 ⟨task, hg, hclaim.1, hclaim.2, rfl⟩
      have hload : ReadCommittedRequests.step cfg s load = some (s.setHandler 0
          (.settling taskId claimToken outcome task (history taskId).length)) := by
        simp only [load, ReadCommittedRequests.step, ReadCommittedRequests.loadOutcome, hidle,
          hslot, hc]
      have hcommit : ReadCommittedRequests.step cfg (s.setHandler 0
          (.settling taskId claimToken outcome task (history taskId).length))
          (.commitOutcome 0 now) =
          some { (s.setHandler 0 (.settling taskId claimToken outcome task
              (history taskId).length)).setHandler 0 .idle with
            tasks := s.tasks.modify taskId
              (Slot.commitUpdate (flushTask task (settleRow outcome now task))
                (.settled (some claimToken)))
              (Slot.commitUpdate_id _ _) } := by
        simp only [ReadCommittedRequests.step, ReadCommittedRequests.commitOutcome,
          setHandler_self, setHandler_tasks, hslot]
        rfl
      refine ⟨_, _, exec_two hload hcommit, by simp [Alone, load, Label.handler], ?_,
        fun _ ht => .inl ht⟩
      · have hevents : ∀ id, eventsOf cfg id db
            ⟨now, later, outcomeRequest taskId claimToken outcome⟩ =
              if taskId = id then [.settled (some claimToken)] else [] := by
          intro id
          cases outcome <;>
            simp only [eventsOf, outcomeRequest, handle, completeTask, failTask, hok]
        rw [haccepted _ hok]
        simp only [hevents]
        refine ⟨idle_again h _, fun id => ?_, h.workers⟩
        rw [Table.get_modify, Table.get_modify, h.tasks]
        by_cases hid : id = taskId
        · subst hid
          simp only [if_true, hg, Option.map_some, Slot.commitUpdate,
            flushTask_loaded (settleRow_id outcome now task)]
        · simp only [if_neg hid, if_neg (Ne.symm hid), List.append_nil]

omit [DecidableEq Json] in
theorem registerWorker_refused {now : Time} {workers : WorkerTable Json} {req : Registration Json}
    {worker : Worker Json} {e : ServiceError} (hg : workers.get req.workerId = some worker)
    (hc : checkOwner req (some worker) = .error e) : registerWorker now workers req = .error e := by
  unfold registerWorker
  split
  next hnone => cases hnone.symm.trans hg
  next found hfound =>
    cases hfound.symm.trans hg
    simp only [hc, bind, Except.bind]

theorem registerWorker_alone (h : Represents s db history) {now later : Time}
    (req : Registration Json) :
    RunsAlone cfg s db history ⟨now, later, .registerWorker req⟩ := by
  have hidle : s.handlers 0 = .idle := by rw [h.handlers]
  have hkept : ∀ id, eventsOf cfg id db ⟨now, later, .registerWorker req⟩ = [] := fun _ => rfl
  have hfound := h.workers req.workerId
  let load : Label Json := .loadRegister 0 req now
  cases hg : s.workers.get req.workerId with
  | none =>
    have hdb : db.workers.get (newWorker req now).id = none := by
      rw [hg] at hfound
      exact hfound.symm
    have hok : registerWorker now db.workers req = .ok _ :=
      registerWorker_ok_iff.2 (.inl ⟨hdb, rfl⟩)
    have hload : ReadCommittedRequests.step cfg s load = some (s.setHandler 0
        (.registering req now none)) := by
      simp only [load, ReadCommittedRequests.step, ReadCommittedRequests.loadRegister, hidle, hg,
        Option.map_none, checkOwner]
    have hcommit : ReadCommittedRequests.step cfg (s.setHandler 0 (.registering req now none))
        (.commitRegister 0) =
        some { (s.setHandler 0 (.registering req now none)).setHandler 0 .idle with
          workers := s.workers.insertNew
            ⟨req.workerId, newWorker req now, [req.sessionId]⟩ hg } := by
      simp only [ReadCommittedRequests.step, ReadCommittedRequests.commitRegister, setHandler_self,
        setHandler_workers]
      exact dif_pos hg
    refine ⟨_, _, exec_two hload hcommit, by simp [Alone, load, Label.handler], ?_,
      fun _ ht => .inl ht⟩
    simp only [handle, hok, hkept, List.append_nil]
    refine ⟨idle_again h _, h.tasks, fun id => ?_⟩
    rw [Table.get_insertNew, Table.get_insertNew]
    change Option.map _ (if id = req.workerId then _ else _) = if id = req.workerId then _ else _
    by_cases hid : id = req.workerId
    · rw [if_pos hid, if_pos hid, Option.map_some]
    · rw [if_neg hid, if_neg hid, h.workers]
  | some slot =>
    have hdb : db.workers.get req.workerId = some slot.row := by
      rw [hg] at hfound
      exact hfound.symm
    cases hc : checkOwner req (some slot.row) with
    | error e =>
      refine .refused h (l := load) (e := e) ?_ (.inr rfl) ?_
      · simp only [handle, registerWorker_refused hdb hc]
      · simp only [load, ReadCommittedRequests.step, ReadCommittedRequests.loadRegister, hidle, hg,
          Option.map_some, hc]
    | ok _ =>
      have hok : registerWorker now db.workers req = .ok _ :=
        registerWorker_ok_iff.2 (.inr ⟨slot.row, hdb, hc, rfl⟩)
      have hload : ReadCommittedRequests.step cfg s load = some (s.setHandler 0
          (.registering req now (some slot.row))) := by
        simp only [load, ReadCommittedRequests.step, ReadCommittedRequests.loadRegister, hidle, hg,
          Option.map_some, hc]
      have hcommit : ReadCommittedRequests.step cfg
          (s.setHandler 0 (.registering req now (some slot.row))) (.commitRegister 0) =
          some { (s.setHandler 0 (.registering req now (some slot.row))).setHandler 0 .idle with
            workers := s.workers.modify req.workerId
              (WorkerSlot.commitRegister req now slot.row)
              (WorkerSlot.commitRegister_id req now slot.row) } := by
        simp only [ReadCommittedRequests.step, ReadCommittedRequests.commitRegister,
          setHandler_self, setHandler_workers]
      refine ⟨_, _, exec_two hload hcommit, by simp [Alone, load, Label.handler], ?_,
        fun _ ht => .inl ht⟩
      simp only [handle, hok, hkept, List.append_nil]
      refine ⟨idle_again h _, h.tasks, fun id => ?_⟩
      rw [Table.get_modify, Table.get_modify, ← h.workers]
      by_cases hid : id = req.workerId
      · subst hid
        simp only [if_true, hg, Option.map_some, WorkerSlot.commitRegister,
          flushWorker_loaded (registerRow_id req now slot.row)]
      · rw [if_neg hid, if_neg hid]

theorem heartbeat_alone (h : Represents s db history) {now later : Time} (req : Heartbeat Json) :
    RunsAlone cfg s db history ⟨now, later, .heartbeat req⟩ := by
  have hidle : s.handlers 0 = .idle := by rw [h.handlers]
  have hrows : (fun taskId => (s.tasks.get taskId).map Slot.row) = db.tasks.get := funext h.rows
  let load : Label Json := .loadHeartbeat 0 req now
  cases hc : checkHeartbeat db.tasks db.workers req with
  | error e =>
    refine .refused h (l := load) (e := e) ?_ (.inr rfl) ?_
    · simp only [handle, heartbeat, hc, bind, Except.bind]
    · cases hw : s.workers.get req.workerId with
      | none =>
        simp only [load, ReadCommittedRequests.step, ReadCommittedRequests.loadHeartbeat, hidle, hw]
      | some worker =>
        have hloads : checkLoads req (some worker.row) db.tasks.get = .error e := by
          rw [← hc, checkHeartbeat, ← h.workers, hw]
          rfl
        simp only [load, ReadCommittedRequests.step, ReadCommittedRequests.loadHeartbeat, hidle,
          hw, hrows, hloads]
  | ok _ =>
    obtain ⟨loaded, hfound, -⟩ := checkWorker_ok_iff.1 (checkHeartbeat_ok_iff.1 hc).1
    rw [← h.workers] at hfound
    obtain ⟨worker, hw, rfl⟩ := Option.map_eq_some_iff.1 hfound
    have hloads : checkLoads req (some worker.row) db.tasks.get = .ok () := by
      rw [← hc, checkHeartbeat, ← h.workers, hw]
      rfl
    have hok : heartbeat now db.tasks db.workers req = .ok _ := heartbeat_ok_iff.2 ⟨hc, rfl⟩
    let beating : Handler Json := .beating req now worker.row
      (req.currentTaskId.bind fun taskId => (s.tasks.get taskId).map Slot.row)
      (s.seenSessions req.workerId) (s.seenHistory req.currentTaskId)
    have hload : ReadCommittedRequests.step cfg s load = some (s.setHandler 0 beating) := by
      simp only [load, ReadCommittedRequests.step, ReadCommittedRequests.loadHeartbeat, hidle,
        hw, hrows, hloads, beating]
    have hworkers : ∀ id, ((s.workers.modify req.workerId
        (WorkerSlot.commitBeat req now worker.row)
        (WorkerSlot.commitBeat_id req now worker.row)).get id).map WorkerSlot.row =
        (db.workers.modify req.workerId (beatWorker req now) (beatWorker_id req now)).get id := by
      intro id
      rw [Table.get_modify, Table.get_modify, ← h.workers]
      by_cases hid : id = req.workerId
      · subst hid
        simp only [if_true, hw, Option.map_some, WorkerSlot.commitBeat,
          flushWorker_loaded (beatWorker_id req now worker.row)]
      · rw [if_neg hid, if_neg hid]
    cases hnamed : req.currentTaskId with
    | none =>
      have hcommit : ReadCommittedRequests.step cfg (s.setHandler 0 beating) (.commitHeartbeat 0) =
          some { (s.setHandler 0 beating).setHandler 0 .idle with
            workers := s.workers.modify req.workerId (WorkerSlot.commitBeat req now worker.row)
              (WorkerSlot.commitBeat_id req now worker.row) } := by
        simp only [beating, ReadCommittedRequests.step, ReadCommittedRequests.commitHeartbeat,
          setHandler_self, setHandler_workers, hnamed]
      refine ⟨_, _, exec_two hload hcommit, by simp [Alone, load, Label.handler], ?_,
        fun _ ht => .inl ht⟩
      simp only [handle, hok, eventsOf, hnamed, beatTasks, reduceCtorEq, if_false, List.append_nil]
      exact ⟨idle_again h _, h.tasks, hworkers⟩
    | some taskId =>
      obtain ⟨task, hg, -⟩ := checkTask_ok_iff.1 ((checkHeartbeat_ok_iff.1 hc).2 taskId hnamed)
      have hslot : s.tasks.get taskId = some ⟨taskId, task, history taskId, none⟩ := by
        rw [h.tasks, hg]
        rfl
      have hcommit : ReadCommittedRequests.step cfg (s.setHandler 0 beating) (.commitHeartbeat 0) =
          some { (s.setHandler 0 beating).setHandler 0 .idle with
            workers := s.workers.modify req.workerId (WorkerSlot.commitBeat req now worker.row)
              (WorkerSlot.commitBeat_id req now worker.row)
            tasks := s.tasks.modify taskId
              (Slot.commitUpdate (flushTask task (beatTask req now task))
                (.renewed (some (now + minutes activeLeaseMinutes))))
              (Slot.commitUpdate_id _ _) } := by
        simp only [beating, ReadCommittedRequests.step, ReadCommittedRequests.commitHeartbeat,
          setHandler_self, setHandler_workers, setHandler_tasks, hnamed, hslot, Option.bind_some,
          Option.map_some, flushed_loaded]
        rfl
      refine ⟨_, _, exec_two hload hcommit, by simp [Alone, load, Label.handler], ?_,
        fun _ ht => .inl ht⟩
      simp only [handle, hok, eventsOf, hnamed, beatTasks, Option.some.injEq]
      refine ⟨idle_again h _, fun id => ?_, hworkers⟩
      rw [Table.get_modify, Table.get_modify, h.tasks]
      by_cases hid : id = taskId
      · subst hid
        simp only [if_true, hg, Option.map_some, Slot.commitUpdate,
          flushTask_loaded (beatTask_id req now task)]
      · simp only [if_neg hid, if_neg (Ne.symm hid), List.append_nil]

end Requests

section Claim
variable [DecidableEq Json] [EmptyCollection Json] (cfg : Settings) {s : System Json}
  {db : Db Json}  {history : TaskId → List RowEvent}

/-- A sweep that meets no lock puts back every row of its scan. -/
theorem sweep_run {req : ClaimRequest} {todo : List TaskId}
    (hi : s.handlers 0 = .sweeping req todo) (hnodup : todo.Nodup)
    (hlapsed : ∀ id ∈ todo, ∃ slot, s.tasks.get id = some slot ∧ slot.lock = none ∧
      leaseLapsed req.taskTypes req.now slot.row = true) :
    ∃ tasks, exec (ReadCommittedRequests.step cfg) s (List.replicate todo.length (.sweepRow 0)) =
        some { s.setHandler 0 (.sweeping req []) with tasks := tasks } ∧
      ∀ id, tasks.get id = (s.tasks.get id).map fun slot =>
        if id ∈ todo then
          slot.write 0 requeueRow (.reclaimed slot.row.leaseExpiresAt req.now)
        else slot := by
  induction todo generalizing s with
  | nil =>
    refine ⟨s.tasks, ?_, fun id => by simp⟩
    rw [List.length_nil, List.replicate_zero, exec_nil, System.setHandler, ← hi,
      Function.update_eq_self]
  | cons next todo ih =>
    obtain ⟨slot, hg, hl, hlapse⟩ := hlapsed next List.mem_cons_self
    obtain ⟨hnext, hrest⟩ := List.nodup_cons.1 hnodup
    have hvisible : slot.visible 0 = slot.row := by simp [Slot.visible, hl]
    have hfree : slot.free 0 = true := by simp [Slot.free, hl]
    let m : System Json := { s.setHandler 0 (.sweeping req todo) with
      tasks := s.tasks.modify next
        (Slot.write 0 requeueRow (.reclaimed slot.row.leaseExpiresAt req.now))
        (Slot.write_id 0 _ _) }
    have hstep : ReadCommittedRequests.step cfg s (.sweepRow 0) = some m := by
      simp only [ReadCommittedRequests.step, ReadCommittedRequests.sweepRow, hi, hg, hfree,
        hvisible, hlapse, if_true]
      rfl
    have hothers : ∀ id, id ≠ next → m.tasks.get id = s.tasks.get id :=
      fun id hid => Table.get_modify_of_ne _ _ (Slot.write_id 0 _ _) hid
    obtain ⟨tasks, hrun, htasks⟩ := ih (s := m) (setHandler_self s 0 _) hrest fun id hid => by
      have hne : id ≠ next := by
        rintro rfl
        exact hnext hid
      rw [hothers id hne]
      exact hlapsed id (List.mem_cons_of_mem next hid)
    refine ⟨tasks, ?_, fun id => ?_⟩
    · rw [List.length_cons, List.replicate_succ, exec_cons_of_step hstep, hrun]
      simp [m, System.setHandler]
    · rw [htasks]
      by_cases hid : id = next
      · subst hid
        simp only [m, Table.get_modify_self, hg, Option.map_some, if_neg hnext,
          List.mem_cons_self, if_true]
      · rw [hothers id hid]
        simp only [List.mem_cons, hid, false_or]

/-- A row of the tables behind the sweep of a claim that is still open. -/
def sweptSlot (taskTypes : List String) (now : Time) (history : TaskId → List RowEvent)
    (id : TaskId) (task : Task Json) : Slot Json :=
  if leaseLapsed taskTypes now task then
    ⟨id, task, history id, some ⟨0, requeueRow task, [.reclaimed task.leaseExpiresAt now]⟩⟩
  else ⟨id, task, history id, none⟩

omit [DecidableEq Json] [EmptyCollection Json] in
theorem sweptSlot_visible (taskTypes : List String) (now : Time) (id : TaskId)
    (task : Task Json) :
    (sweptSlot taskTypes now history id task).visible 0 = swept taskTypes now task := by
  by_cases hl : leaseLapsed taskTypes now task = true <;>
    simp [sweptSlot, swept, hl, Slot.visible]

omit [DecidableEq Json] [EmptyCollection Json] in
theorem sweptSlot_free (taskTypes : List String) (now : Time) (id : TaskId) (task : Task Json) :
    (sweptSlot taskTypes now history id task).free 0 = true := by
  unfold sweptSlot
  split <;> simp [Slot.free]

omit [DecidableEq Json] [EmptyCollection Json] in
theorem sweptSlot_publish (taskTypes : List String) (now : Time) (id : TaskId)
    (task : Task Json) :
    (sweptSlot taskTypes now history id task).publish 0 =
      ⟨id, swept taskTypes now task, history id ++ sweepEvents taskTypes now (some task),
        none⟩ := by
  by_cases hl : leaseLapsed taskTypes now task = true <;>
    simp [sweptSlot, swept, sweepEvents, hl, Slot.publish]

omit [DecidableEq Json] [EmptyCollection Json] in
/-- The claim of the row in the same transaction. -/
theorem sweptSlot_claim (taskTypes : List String) (now : Time) (id : TaskId) (task : Task Json)
    (f : Task Json → Task Json) (e : RowEvent) :
    ((sweptSlot taskTypes now history id task).write 0 f e).publish 0 =
      ⟨id, f (swept taskTypes now task),
        history id ++ (sweepEvents taskTypes now (some task) ++ [e]), none⟩ := by
  by_cases hl : leaseLapsed taskTypes now task = true <;>
    simp [sweptSlot, swept, sweepEvents, hl, Slot.publish, Slot.write]

/-- The first two statements of a claim, up to the snapshot of the second. -/
theorem sweep_alone (h : Represents s db history) (req : ClaimRequest) {claimToken : String}
    (hlease : ¬req.leaseMinutes.any (· ≤ 0) = true) (hfresh : claimToken ∉ s.tokens) :
    ∃ ls tasks, Alone ls ∧ exec (ReadCommittedRequests.step cfg) s ls =
        some { s.setHandler 0 (.selecting req claimToken
            (claimableIds req (reclaim req.taskTypes req.now db.tasks).rows)) with
          tasks := tasks
          tokens := claimToken :: s.tokens } ∧
      ∀ id, tasks.get id =
        (db.tasks.get id).map (sweptSlot req.taskTypes req.now history id) := by
  have hidle : s.handlers 0 = .idle := by rw [h.handlers]
  let todo := lapsedIds req db.tasks.rows
  have hmem : ∀ id, id ∈ todo ↔ ∃ task, db.tasks.get id = some task ∧
      leaseLapsed req.taskTypes req.now task = true := by
    intro id
    simp only [todo, lapsedIds, List.mem_map, List.mem_filter]
    constructor
    · rintro ⟨task, ⟨hm, hl⟩, rfl⟩
      exact ⟨task, Table.get_of_mem hm, hl⟩
    · rintro ⟨task, hg, hl⟩
      exact ⟨task, ⟨Table.mem_of_get hg, hl⟩, Table.key_of_get hg⟩
  have hview : ∀ id, (s.tasks.get id).map (Slot.visible 0) = db.tasks.get id := by
    intro id
    rw [h.tasks, Option.map_map]
    exact Option.map_id'
  have hbegin : ReadCommittedRequests.step cfg s (.beginSweep 0 req (place db.tasks)) =
      some (s.setHandler 0 (.sweeping req todo)) := by
    simp only [ReadCommittedRequests.step, ReadCommittedRequests.beginSweep, hidle,
      snapshot_eq hview]
    exact if_neg hlease
  obtain ⟨tasks, hsweep, htasks⟩ := sweep_run cfg
    (s := s.setHandler 0 (.sweeping req todo)) (setHandler_self s 0 _)
    (db.tasks.nodup.sublist (List.filter_sublist.map Task.id)) fun id hid => by
      obtain ⟨task, hg, hl⟩ := (hmem id).1 hid
      exact ⟨⟨id, task, history id, none⟩, by rw [setHandler_tasks, h.tasks, hg]; rfl, rfl, hl⟩
  have hrows : ∀ id, tasks.get id =
      (db.tasks.get id).map (sweptSlot req.taskTypes req.now history id) := by
    intro id
    rw [htasks, setHandler_tasks, h.tasks, Option.map_map]
    cases hg : db.tasks.get id with
    | none => rfl
    | some task =>
      have hin : id ∈ todo ↔ leaseLapsed req.taskTypes req.now task = true := by
        rw [hmem, hg]
        simp
      simp only [Option.map_some, Function.comp_apply, hin, sweptSlot, Slot.write]
  let m : System Json := { s.setHandler 0 (.sweeping req []) with tasks := tasks }
  have hrest : exec (ReadCommittedRequests.step cfg) (s.setHandler 0 (.sweeping req todo))
      (List.replicate todo.length (.sweepRow 0)) = some m := by
    rw [hsweep]
    simp [m, System.setHandler]
  let swept := reclaim req.taskTypes req.now db.tasks
  have hswept : ∀ id, (m.tasks.get id).map (Slot.visible 0) = swept.get id := by
    intro id
    simp only [m, swept, hrows, get_reclaim, Option.map_map]
    cases hg : db.tasks.get id with
    | none => rfl
    | some task => exact congrArg some (sweptSlot_visible _ _ _ _)
  have hselect : ReadCommittedRequests.step cfg m (.beginSelect 0 claimToken (place swept)) =
      some { m.setHandler 0 (.selecting req claimToken (claimableIds req swept.rows)) with
        tokens := claimToken :: s.tokens } := by
    have hm : m.handlers 0 = .sweeping req [] := setHandler_self s 0 _
    simp only [ReadCommittedRequests.step, ReadCommittedRequests.beginSelect, hm,
      snapshot_eq hswept]
    exact if_neg hfresh
  refine ⟨.beginSweep 0 req (place db.tasks) ::
    (List.replicate todo.length (.sweepRow 0) ++ [.beginSelect 0 claimToken (place swept)]),
    tasks, ?_, ?_, hrows⟩
  · intro l hl
    simp only [List.mem_cons, List.mem_append, List.mem_replicate, List.not_mem_nil,
      or_false] at hl
    obtain rfl | ⟨-, rfl⟩ | rfl := hl <;> exact .inr rfl
  · rw [exec_cons_of_step hbegin, exec_append hrest, exec_cons_of_step hselect, exec_nil]
    simp [m, swept, System.setHandler]

/-- A claim, from the rows that it selects to its commit. -/
theorem select_alone (later : Time) {m : System Json} {req : ClaimRequest} {claimToken : String}
    (h : ∀ id, m.tasks.get id =
      (db.tasks.get id).map (sweptSlot req.taskTypes req.now history id))
    (hm : m.handlers = Function.update (fun _ => .idle) 0 (.selecting req claimToken
      (claimableIds req (reclaim req.taskTypes req.now db.tasks).rows)))
    (hworkers : ∀ id, (m.workers.get id).map WorkerSlot.row = db.workers.get id)
    (hlease : ∀ n, req.leaseMinutes = some n → 0 < n) :
    ∃ t, exec (ReadCommittedRequests.step cfg) m [.selectRow 0, .commitClaim 0] = some t ∧
      t.tokens = m.tokens ∧
      let r : Timed Json :=
        ⟨req.now, later, .claimNext claimToken req.taskTypes req.workerId req.leaseMinutes⟩
      Represents t (handle cfg db r).1 fun id => history id ++ eventsOf cfg id db r := by
  have hselecting : m.handlers 0 = .selecting req claimToken
      (claimableIds req (reclaim req.taskTypes req.now db.tasks).rows) := by
    rw [hm, Function.update_self]
  have hidle : ∀ hd : Handler Json,
      Function.update (Function.update m.handlers 0 hd) 0 .idle = fun _ => .idle := by
    intro hd
    rw [hm, Function.update_idem, Function.update_idem, Function.update_eq_self_iff]
  have hids : (claimableIds req (reclaim req.taskTypes req.now db.tasks).rows).head? =
      (candidate req.taskTypes (reclaim req.taskTypes req.now db.tasks)).map Task.id := by
    rw [claimableIds, List.head?_map, head_insertionSort]
    rfl
  cases hc : candidate req.taskTypes (reclaim req.taskTypes req.now db.tasks) with
  | none =>
    rw [hc, Option.map_none, List.head?_eq_none_iff] at hids
    have hselect : ReadCommittedRequests.step cfg m (.selectRow 0) =
        some (m.setHandler 0 .claimed) := by
      simp only [ReadCommittedRequests.step, ReadCommittedRequests.selectRow, hselecting, hids]
    have hcommit : ReadCommittedRequests.step cfg (m.setHandler 0 .claimed) (.commitClaim 0) =
        some { (m.setHandler 0 .claimed).setHandler 0 .idle with
          tasks := m.tasks.mapRows (Slot.publish 0) (Slot.publish_id 0) } := by
      simp only [ReadCommittedRequests.step, ReadCommittedRequests.commitClaim, setHandler_self,
        setHandler_tasks]
    refine ⟨_, exec_two hselect hcommit, rfl, ?_⟩
    simp only [handle, eventsOf, claimNext_of_none hlease hc, claimEvents, List.append_nil]
    refine ⟨hidle _, fun id => ?_, hworkers⟩
    rw [Table.get_mapRows, h, get_reclaim]
    cases hg : db.tasks.get id with
    | none => rfl
    | some task => exact congrArg some (sweptSlot_publish _ _ _ _)
  | some picked =>
    obtain ⟨task, hg, hpicked, -, -⟩ := candidate_reclaim hc
    obtain ⟨hmem, hclaimable⟩ := List.mem_filter.1 (List.minOn?_mem hc)
    rw [hc, Option.map_some, List.head?_eq_some_iff] at hids
    obtain ⟨rest, hrest⟩ := hids
    let f : Task Json → Task Json :=
      claimRow req.workerId claimToken req.now req.leaseMinutes
    have hslot : m.tasks.get picked.id =
        some (sweptSlot req.taskTypes req.now history picked.id task) := by
      rw [h, hg]
      rfl
    have hselect : ReadCommittedRequests.step cfg m (.selectRow 0) =
        some { m.setHandler 0 .claimed with
          tasks := m.tasks.modify picked.id (Slot.write 0 f (claimEvent (f picked)))
            (Slot.write_id 0 _ _) } := by
      simp only [ReadCommittedRequests.step, ReadCommittedRequests.selectRow, hselecting, hrest,
        hslot, sweptSlot_free, sweptSlot_visible, ← hpicked, hclaimable, Bool.and_self, if_true]
      rfl
    have hcommit : ReadCommittedRequests.step cfg { m.setHandler 0 .claimed with
          tasks := m.tasks.modify picked.id (Slot.write 0 f (claimEvent (f picked)))
            (Slot.write_id 0 _ _) } (.commitClaim 0) =
        some { (m.setHandler 0 .claimed).setHandler 0 .idle with
          tasks := (m.tasks.modify picked.id (Slot.write 0 f (claimEvent (f picked)))
            (Slot.write_id 0 _ _)).mapRows (Slot.publish 0) (Slot.publish_id 0) } := by
      have hclaimed : (m.setHandler 0 .claimed).handlers 0 = .claimed := setHandler_self m 0 _
      simp only [ReadCommittedRequests.step, ReadCommittedRequests.commitClaim, hclaimed]
      rfl
    refine ⟨_, exec_two hselect hcommit, rfl, ?_⟩
    simp only [handle, eventsOf, claimNext_of_some hlease hc, claimEvents]
    refine ⟨hidle _, fun id => ?_, hworkers⟩
    rw [Table.get_mapRows, Table.get_modify, Table.get_modify, h, get_reclaim]
    by_cases hid : id = picked.id
    · subst hid
      simp only [if_true, hg, Option.map_some, sweptSlot_claim, ← hpicked, claimRow_id]
      rfl
    · have hne : (claimRow req.workerId claimToken req.now req.leaseMinutes picked).id ≠ id :=
        Ne.symm hid
      simp only [if_neg hid, if_neg hne, List.append_nil]
      cases hother : db.tasks.get id with
      | none => rfl
      | some other => exact congrArg some (sweptSlot_publish _ _ _ _)

theorem claimNext_alone (h : Represents s db history) {now later : Time} {claimToken : String}
    (hfresh : claimToken ∉ s.tokens) (taskTypes : List String) (workerId : String)
    (leaseMinutes : Option Int) :
    RunsAlone cfg s db history
      ⟨now, later, .claimNext claimToken taskTypes workerId leaseMinutes⟩ := by
  let req : ClaimRequest := ⟨taskTypes, workerId, leaseMinutes, now⟩
  by_cases hlease : leaseMinutes.any (· ≤ 0) = true
  · have hidle : s.handlers 0 = .idle := by rw [h.handlers]
    refine .refused h (e := .taskServiceError "lease_minutes must be greater than zero")
      (l := .beginSweep 0 req fun _ => 0) ?_ (.inr rfl) ?_
    · simp only [handle, claimNext, if_pos hlease]
    · simp only [ReadCommittedRequests.step, ReadCommittedRequests.beginSweep, hidle]
      exact if_pos hlease
  · obtain ⟨ls, tasks, halone, hsweep, hrows⟩ := sweep_alone cfg h req hlease hfresh
    have hpositive : ∀ n, leaseMinutes = some n → 0 < n := by
      rintro n rfl
      simpa using hlease
    let m : System Json := { s.setHandler 0 (.selecting req claimToken
        (claimableIds req (reclaim taskTypes now db.tasks).rows)) with
      tasks := tasks
      tokens := claimToken :: s.tokens }
    have hm : m.handlers = Function.update (fun _ => .idle) 0 (.selecting req claimToken
        (claimableIds req (reclaim taskTypes now db.tasks).rows)) := by
      simp only [m, System.setHandler, h.handlers]
    obtain ⟨t, hselect, htokens, ht⟩ :=
      select_alone cfg later (m := m) hrows hm h.workers hpositive
    refine ⟨ls ++ [.selectRow 0, .commitClaim 0], t, (exec_append hsweep).trans hselect, ?_, ht, ?_⟩
    · intro l hl
      rcases List.mem_append.1 hl with hl | hl
      · exact halone l hl
      · simp only [List.mem_cons, List.not_mem_nil, or_false] at hl
        obtain rfl | rfl := hl <;> exact .inr rfl
    · intro token hin
      rw [htokens] at hin
      rcases List.mem_cons.1 hin with rfl | hin
      · exact .inr rfl
      · exact .inl hin

end Claim

/-- The requests of the API. The cleanup jobs of the migrations are not among them. -/
def Served (r : Timed Json) : Prop := r.request ≠ .cleanupTasks ∧ r.request ≠ .cleanupWorkers

section Runs
variable [DecidableEq Json] [EmptyCollection Json] (cfg : Settings)

theorem handle_alone {s : System Json} {db : Db Json} {history : TaskId → List RowEvent}
    (h : Represents s db history) {r : Timed Json} (hserved : Served r)
    (hnew : ∀ id, submitted r.request = some id → history id = [])
    (hfresh : ∀ token, drawn r.request = some token → token ∉ s.tokens) :
    RunsAlone cfg s db history r := by
  obtain ⟨now, later, request⟩ := r
  cases request with
  | submitTask id taskType payload leaseMinutes retentionHours =>
    exact submitTask_alone h (hnew id rfl) taskType payload leaseMinutes retentionHours
  | claimNext claimToken taskTypes workerId leaseMinutes =>
    exact claimNext_alone cfg h (hfresh claimToken rfl) taskTypes workerId leaseMinutes
  | completeTask taskId claimToken result => exact settleTask_alone h (.complete result)
  | failTask taskId claimToken error => exact settleTask_alone h (.fail error)
  | registerWorker req => exact registerWorker_alone h req
  | heartbeat req => exact heartbeat_alone h req
  | cleanupTasks => exact absurd rfl hserved.1
  | cleanupWorkers => exact absurd rfl hserved.2
  | rescan rank =>
    refine ⟨[], s, rfl, by simp [Alone], ?_, fun _ ht => .inl ht⟩
    refine ⟨h.handlers, fun id => ?_, h.workers⟩
    simp only [handle, SerialRequests.rescan, Table.get_reorder, h.tasks, eventsOf,
      List.append_nil]

/-- Requests that are served one at a time are runs of the concurrent model too, with the same
tables and histories at the end. -/
theorem serial_requests_concurrent (clock : Time) (rs : List (Timed Json))
    (s : SerialRequests.Served Json)
    (hrun : exec (SerialRequests.step cfg) (SerialRequests.start clock) rs = some s)
    (hfresh : FreshDraws rs) (hserved : ∀ r ∈ rs, Served r) :
    ∃ ls t, exec (ReadCommittedRequests.step cfg) ReadCommittedRequests.start ls = some t ∧
      Alone ls ∧
      Represents t s.db fun id => historyOf cfg id (SerialRequests.start clock) rs := by
  have hall : ∃ ls t,
      exec (ReadCommittedRequests.step cfg) ReadCommittedRequests.start ls = some t ∧ Alone ls ∧
      Represents t s.db (fun id => historyOf cfg id (SerialRequests.start clock) rs) ∧
      ∀ token ∈ t.tokens, token ∈ rs.filterMap fun r => drawn r.request := by
    revert hfresh hserved
    refine invariant_with_past (I := fun rs s => FreshDraws rs → (∀ r ∈ rs, Served r) → ∃ ls t,
      exec (ReadCommittedRequests.step cfg) ReadCommittedRequests.start ls = some t ∧ Alone ls ∧
      Represents t s.db (fun id => historyOf cfg id (SerialRequests.start clock) rs) ∧
      ∀ token ∈ t.tokens, token ∈ rs.filterMap fun r => drawn r.request) ?_ ?_ hrun
    · intro _ _
      refine ⟨[], _, rfl, by simp [Alone], ⟨rfl, fun _ => rfl, fun _ => rfl⟩, ?_⟩
      rintro token ⟨⟩
    · intro ks m r n hks ih hr hfresh hserved
      obtain ⟨ls, t, hls, halone, ht, htokens⟩ :=
        ih hfresh.init fun q hq => hserved q (List.mem_append_left _ hq)
      obtain ⟨-, -, rfl⟩ := step_inv cfg hr
      obtain ⟨ls', t', hls', halone', ht', htokens'⟩ := handle_alone cfg ht
        (hserved r (by simp))
        (fun id hid => ((run_tracked hks hfresh.init id).unborn (hfresh.submitted_new hid)).1)
        fun token htoken hin => hfresh.drawn_new htoken (htokens token hin)
      refine ⟨ls ++ ls', t', (exec_append hls).trans hls', ?_, ?_, ?_⟩
      · intro l hl
        exact (List.mem_append.1 hl).elim (halone l) (halone' l)
      · simpa only [historyOf_concat hks hr] using ht'
      · intro token hin
        rw [List.filterMap_append, List.mem_append]
        rcases htokens' token hin with hin | hdrawn
        · exact .inl (htokens token hin)
        · exact .inr (by simp [hdrawn])
  obtain ⟨ls, t, hls, halone, ht, -⟩ := hall
  exact ⟨ls, t, hls, halone, ht⟩

theorem serial_requests_concurrent_lateOutcome :
    ∃ s, exec (SerialRequests.step {}) (SerialRequests.start 0) lateOutcome = some s ∧
    ∃ ls t, exec (ReadCommittedRequests.step {}) ReadCommittedRequests.start ls = some t ∧
      Alone ls ∧
      Represents t s.db fun id => historyOf {} id (SerialRequests.start 0) lateOutcome :=
  ⟨_, rfl, serial_requests_concurrent {} 0 lateOutcome _ rfl ⟨by decide, by decide⟩
    (by simp [lateOutcome, Served])⟩

end Runs

end TaskQueue.UninterruptedRequests

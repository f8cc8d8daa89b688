import TaskQueue.StorableValues
import TaskQueue.TaskRowInvariant

/-!
# What a claim does to the task table

`claim_next` sweeps first and claims from what the sweep left. Taken together its two
statements hand out the oldest task that is queued or whose lease has lapsed, put the
other lapsed ones back, and leave every other row alone. That is so as long as the override
fits the cast to `integer`, the new lease the calendar and the texts the database; otherwise
a statement fails.
-/

namespace TaskQueue.ClaimNext
open KeyedTables TaskService SerialRequests TaskRowInvariant

variable {Json : Type}

/-- The claim of a task has outlived its lease. -/
def Expired (taskTypes : List String) (now : Time) (task : Task Json) : Prop :=
  task.status = .claimed ∧ task.taskType ∈ taskTypes ∧
    ∃ lease, task.leaseExpiresAt = some lease ∧ lease < now

/-- The task waits for a worker, or its worker has let it go. -/
def Available (taskTypes : List String) (now : Time) (task : Task Json) : Prop :=
  (task.status = .queued ∧ task.taskType ∈ taskTypes) ∨ Expired taskTypes now task

/-- The columns that only the submission writes. -/
structure SameTask (task task' : Task Json) : Prop where
  taskType : task'.taskType = task.taskType
  payload : task'.payload = task.payload
  createdAt : task'.createdAt = task.createdAt
  leaseMinutes : task'.leaseMinutes = task.leaseMinutes
  expiresAt : task'.expiresAt = task.expiresAt

/-- What a request for a task did when it was handed one. -/
structure Handed (tasks tasks' : TaskTable Json) (taskTypes : List String) (now : Time)
    (workerId claimToken : String) (leaseMinutes : Option Int) (claimed : Task Json) : Prop where
  oldest : ∃ task, tasks.get claimed.id = some task ∧ Available taskTypes now task ∧
    (∀ other ∈ tasks.rows, Available taskTypes now other → task.createdAt ≤ other.createdAt) ∧
    claimed.leaseExpiresAt = some (now + minutes (leaseMinutes.getD task.leaseMinutes))
  stored : tasks'.get claimed.id = some claimed
  status : claimed.status = .claimed
  claimedBy : claimed.claimedBy = some workerId
  token : claimed.claimToken = some claimToken
  requeued : ∀ id task, tasks.get id = some task → id ≠ claimed.id →
    Expired taskTypes now task →
      ∃ task', tasks'.get id = some task' ∧ task'.status = .queued ∧ Unclaimed task'
  untouched : ∀ id task, tasks.get id = some task → id ≠ claimed.id →
    ¬Expired taskTypes now task → tasks'.get id = some task

/-- A row after the sweep. -/
def swept (taskTypes : List String) (now : Time) (task : Task Json) : Task Json :=
  if leaseLapsed taskTypes now task then requeueRow task else task

section Swept
variable {taskTypes : List String} {now : Time} {task : Task Json}

theorem leaseLapsed_eq_true_iff :
    leaseLapsed taskTypes now task = true ↔ Expired taskTypes now task :=
  leaseLapsed_iff

theorem swept_of_expired (h : Expired taskTypes now task) :
    swept taskTypes now task = requeueRow task :=
  if_pos (leaseLapsed_eq_true_iff.2 h)

theorem swept_of_not_expired (h : ¬Expired taskTypes now task) :
    swept taskTypes now task = task :=
  if_neg fun hl => h (leaseLapsed_eq_true_iff.1 hl)

@[simp] theorem swept_id : (swept taskTypes now task).id = task.id := by
  unfold swept
  split <;> rfl

@[simp] theorem swept_createdAt : (swept taskTypes now task).createdAt = task.createdAt := by
  unfold swept
  split <;> rfl

theorem sameTask_swept : SameTask task (swept taskTypes now task) := by
  by_cases h : Expired taskTypes now task
  · rw [swept_of_expired h]
    exact ⟨rfl, rfl, rfl, rfl, rfl⟩
  · rw [swept_of_not_expired h]
    exact ⟨rfl, rfl, rfl, rfl, rfl⟩

/-- The claim overwrites every column that the sweep clears. -/
theorem claimRow_swept (workerId claimToken : String) (leaseMinutes : Option Int) :
    claimRow workerId claimToken now leaseMinutes (swept taskTypes now task) =
      claimRow workerId claimToken now leaseMinutes task := by
  by_cases h : Expired taskTypes now task
  · rw [swept_of_expired h]
    rfl
  · rw [swept_of_not_expired h]

/-- The candidates after the sweep are the rows available before it. -/
theorem claimable_swept :
    claimable taskTypes (swept taskTypes now task) = true ↔ Available taskTypes now task := by
  by_cases h : Expired taskTypes now task
  · rw [swept_of_expired h, claimable_iff]
    exact iff_of_true ⟨rfl, h.2.1⟩ (.inr h)
  · rw [swept_of_not_expired h, claimable_iff]
    exact ⟨.inl, fun ha => ha.resolve_right h⟩

end Swept

section Table
variable {taskTypes : List String} {now : Time} {tasks : TaskTable Json}

theorem get_reclaim (id : TaskId) :
    (reclaim taskTypes now tasks).get id = (tasks.get id).map (swept taskTypes now) :=
  Table.get_mapRows tasks _ _ id

/-- A sweep that finds nothing lapsed writes nothing. -/
theorem reclaim_eq_self (h : ∀ task ∈ tasks.rows, ¬Expired taskTypes now task) :
    reclaim taskTypes now tasks = tasks := by
  have hrows : tasks.rows.map (swept taskTypes now) = tasks.rows := by
    conv_rhs => rw [← List.map_id tasks.rows]
    exact List.map_congr_left fun task ht => swept_of_not_expired (h task ht)
  cases tasks
  simp only [reclaim, Table.mapRows, Table.mk.injEq]
  exact hrows

theorem candidate_eq_none_iff :
    candidate taskTypes (reclaim taskTypes now tasks) = none ↔
      ∀ task ∈ tasks.rows, ¬Available taskTypes now task := by
  have hempty : candidate taskTypes (reclaim taskTypes now tasks) = none ↔
      (tasks.rows.map (swept taskTypes now)).filter (claimable taskTypes) = [] := by
    rw [← Option.not_isSome_iff_eq_none, candidate, List.isSome_minOn?_iff, not_not]
    rfl
  rw [hempty, List.filter_eq_nil_iff, List.forall_mem_map]
  exact forall₂_congr fun task _ => not_congr claimable_swept

/-- The candidate is the oldest of the rows available before the sweep. -/
theorem candidate_reclaim {picked : Task Json}
    (h : candidate taskTypes (reclaim taskTypes now tasks) = some picked) :
    ∃ task, tasks.get picked.id = some task ∧ picked = swept taskTypes now task ∧
      Available taskTypes now task ∧
      ∀ other ∈ tasks.rows, Available taskTypes now other → task.createdAt ≤ other.createdAt := by
  obtain ⟨hmem, hclaimable⟩ := List.mem_filter.1 (List.minOn?_mem h)
  obtain ⟨task, ht, hpicked⟩ := List.mem_map.1 hmem
  change swept taskTypes now task = picked at hpicked
  have hid : picked.id = task.id := by rw [← hpicked, swept_id]
  have hget : tasks.get picked.id = some task := by
    rw [hid]
    exact Table.get_of_mem ht
  refine ⟨task, hget, hpicked.symm, claimable_swept.1 (hpicked ▸ hclaimable), ?_⟩
  intro other hother havailable
  have hcandidate : swept taskTypes now other ∈
      (reclaim taskTypes now tasks).rows.filter (claimable taskTypes) :=
    List.mem_filter.2 ⟨List.mem_map_of_mem hother, claimable_swept.2 havailable⟩
  have hle := List.apply_get_minOn?_le_of_mem (f := Task.createdAt) hcandidate
  have hget? : ((reclaim taskTypes now tasks).rows.filter (claimable taskTypes)).minOn?
      Task.createdAt = some picked := h
  simp only [hget?, Option.get_some, swept_createdAt] at hle
  rwa [← hpicked, swept_createdAt] at hle

/-- The rows after the claim of the candidate. -/
theorem handed_of_candidate {workerId claimToken : String} {leaseMinutes : Option Int}
    {picked : Task Json}
    (h : candidate taskTypes (reclaim taskTypes now tasks) = some picked) :
    Handed tasks ((reclaim taskTypes now tasks).modify picked.id
        (claimRow workerId claimToken now leaseMinutes)
        (claimRow_id workerId claimToken now leaseMinutes))
      taskTypes now workerId claimToken leaseMinutes
      (claimRow workerId claimToken now leaseMinutes picked) := by
  obtain ⟨task, hget, hpicked, havailable, holdest⟩ := candidate_reclaim h
  have hother : ∀ id other, tasks.get id = some other → id ≠ picked.id →
      ((reclaim taskTypes now tasks).modify picked.id
        (claimRow workerId claimToken now leaseMinutes)
        (claimRow_id workerId claimToken now leaseMinutes)).get id =
        some (swept taskTypes now other) := by
    intro id other hid hne
    rw [Table.get_modify_of_ne _ _ _ hne, get_reclaim, hid]
    rfl
  refine ⟨⟨task, hget, havailable, holdest, ?_⟩, ?_, rfl, rfl, rfl, ?_, ?_⟩
  · rw [hpicked, claimRow_swept]
    rfl
  · rw [claimRow_id, Table.get_modify_self, get_reclaim, hget, hpicked]
    rfl
  · intro id other hid hne hexpired
    refine ⟨_, hother id other hid hne, ?_⟩
    rw [swept_of_expired hexpired]
    exact ⟨rfl, rfl, rfl, rfl, rfl, rfl, rfl, rfl, rfl, rfl⟩
  · intro id other hid hne hlive
    rw [hother id other hid hne, swept_of_not_expired hlive]

end Table

/-- A claim leaves every row in place and the columns of its submission as they were. -/
theorem claimNext_sameTask {now : Time} {claimToken : String} {tasks : TaskTable Json}
    {taskTypes : List String} {workerId : String} {leaseMinutes : Option Int}
    {r : TaskTable Json × Option (Task Json)}
    (h : claimNext now claimToken tasks taskTypes workerId leaseMinutes = .ok r) (id : TaskId) :
    (tasks.get id = none → r.1.get id = none) ∧
      ∀ task, tasks.get id = some task →
        ∃ task', r.1.get id = some task' ∧ SameTask task task' := by
  obtain ⟨-, hr | ⟨picked, -, -, hr⟩⟩ := claimNext_ok_cases h
  · rw [hr, get_reclaim]
    refine ⟨fun hnone => by rw [hnone]; rfl, fun task ht => ?_⟩
    exact ⟨_, by rw [ht]; rfl, sameTask_swept⟩
  · rw [hr, Table.get_modify, get_reclaim]
    refine ⟨fun hnone => by rw [hnone]; split <;> rfl, fun task ht => ?_⟩
    rw [ht]
    have hsame : SameTask task (swept taskTypes now task) := sameTask_swept
    split
    · exact ⟨_, rfl, hsame.taskType, hsame.payload, hsame.createdAt, hsame.leaseMinutes,
        hsame.expiresAt⟩
    · exact ⟨_, rfl, hsame⟩

/-- A positive lease passes the check of the arguments. -/
theorem not_refused {leaseMinutes : Option Int} (h : ∀ n, leaseMinutes = some n → 0 < n) :
    ¬leaseMinutes.any (· ≤ 0) = true := by
  cases leaseMinutes with
  | none => simp
  | some n => simpa using h n rfl

section Result
variable {now : Time} {claimToken : String} {tasks : TaskTable Json} {taskTypes : List String}
  {workerId : String} {leaseMinutes : Option Int}

theorem claimNext_of_none (hlease : ∀ n, leaseMinutes = some n → 0 < n)
    (h : candidate taskTypes (reclaim taskTypes now tasks) = none) :
    claimNext now claimToken tasks taskTypes workerId leaseMinutes =
      .ok (reclaim taskTypes now tasks, none) := by
  unfold claimNext
  rw [if_neg (not_refused hlease)]
  simp only [h]

theorem claimNext_of_some (hlease : ∀ n, leaseMinutes = some n → 0 < n) {picked : Task Json}
    (h : candidate taskTypes (reclaim taskTypes now tasks) = some picked) :
    claimNext now claimToken tasks taskTypes workerId leaseMinutes =
      .ok ((reclaim taskTypes now tasks).modify picked.id
          (claimRow workerId claimToken now leaseMinutes)
          (claimRow_id workerId claimToken now leaseMinutes),
        some (claimRow workerId claimToken now leaseMinutes picked)) := by
  unfold claimNext
  rw [if_neg (not_refused hlease)]
  simp only [h]

end Result

/-- The rows before and after a request for a task, and what it is handed. It is handed none
exactly if no task of its types is queued or has a lapsed lease, and then nothing is written.
Otherwise it is handed the oldest of them. -/
structure ServesClaim (tasks tasks' : TaskTable Json) (taskTypes : List String) (now : Time)
    (workerId claimToken : String) (leaseMinutes : Option Int) (row : Option (Task Json)) :
    Prop where
  none_iff : row = none ↔ ∀ task ∈ tasks.rows, ¬Available taskTypes now task
  unchanged : row = none → tasks' = tasks
  handed : ∀ claimed, row = some claimed →
    Handed tasks tasks' taskTypes now workerId claimToken leaseMinutes claimed
  columns : ∀ id, (tasks.get id = none → tasks'.get id = none) ∧
    ∀ task, tasks.get id = some task → ∃ task', tasks'.get id = some task' ∧ SameTask task task'

/-- In unbounded numbers every request with a positive lease is served. -/
theorem claimNext_spec (now : Time) (claimToken : String) (tasks : TaskTable Json)
    (taskTypes : List String) (workerId : String) (leaseMinutes : Option Int)
    (hlease : ∀ n, leaseMinutes = some n → 0 < n) :
    ∃ tasks' row, claimNext now claimToken tasks taskTypes workerId leaseMinutes =
        .ok (tasks', row) ∧
      ServesClaim tasks tasks' taskTypes now workerId claimToken leaseMinutes row := by
  cases hc : candidate taskTypes (reclaim taskTypes now tasks) with
  | none =>
    have heq : claimNext now claimToken tasks taskTypes workerId leaseMinutes = _ :=
      claimNext_of_none hlease hc
    have hnone := candidate_eq_none_iff.1 hc
    have hself : reclaim taskTypes now tasks = tasks :=
      reclaim_eq_self fun task ht hexpired => hnone task ht (.inr hexpired)
    refine ⟨_, _, heq, iff_of_true rfl hnone, fun _ => hself, fun claimed hrow => ?_, ?_⟩
    · cases hrow
    · exact claimNext_sameTask heq
  | some picked =>
    have heq : claimNext now claimToken tasks taskTypes workerId leaseMinutes = _ :=
      claimNext_of_some hlease hc
    have hsome : ¬∀ task ∈ tasks.rows, ¬Available taskTypes now task := by
      intro hall
      rw [candidate_eq_none_iff.2 hall] at hc
      cases hc
    refine ⟨_, _, heq, iff_of_false (by simp) hsome, fun hrow => ?_, fun claimed hrow => ?_, ?_⟩
    · cases hrow
    · cases hrow
      exact handed_of_candidate hc
    · exact claimNext_sameTask heq

section Limits
variable [EmptyCollection Json] (cfg : Settings) (eager : Bool) (jsonb : Json → Bool)
  (db : Db Json) (now later : Time) (claimToken : String) (taskTypes : List String)
  (workerId : String) (leaseMinutes : Option Int)

/-- The request is answered, and served. -/
def Answered : Prop :=
  ∃ tasks' row, StorableValues.answer cfg eager jsonb db
      ⟨now, later, .claimNext claimToken taskTypes workerId leaseMinutes⟩ =
        .ok ({ db with tasks := tasks' }, .claimed row) ∧
    ServesClaim db.tasks tasks' taskTypes now workerId claimToken leaseMinutes row

/-- The override fits the cast wherever the statement evaluates it, and the lease in force for
the task that is claimed ends within the calendar. -/
def LeaseFits : Prop :=
  let found := candidate taskTypes (reclaim taskTypes now db.tasks)
  ((eager = true ∨ found ≠ none) → ∀ n, leaseMinutes = some n → MachineNumbers.IsInteger n) ∧
    ∀ task, found = some task →
      MachineNumbers.IsDatetime (now + minutes (leaseMinutes.getD task.leaseMinutes))

/-- With the limits of the database, a request with a positive lease is served exactly if the
lease fits and its texts are ones that the database has. -/
theorem claimNext_served_iff (hlease : ∀ n, leaseMinutes = some n → 0 < n) :
    Answered cfg eager jsonb db now later claimToken taskTypes workerId leaseMinutes ↔
      LeaseFits eager db now taskTypes leaseMinutes ∧
        (∀ taskType ∈ taskTypes, StorableValues.storableText taskType = true) ∧
        StorableValues.storableText workerId = true := by
  have hfits : MachineNumbers.claimNext eager db now claimToken taskTypes workerId leaseMinutes =
      .ok (MachineNumbers.claimed db now claimToken taskTypes workerId leaseMinutes) ↔
      LeaseFits eager db now taskTypes leaseMinutes :=
    MachineNumbers.claimNext_eq_iff (not_refused hlease)
  have htexts : (∀ taskType ∈ taskTypes, StorableValues.storableText taskType = true) ∧
      StorableValues.storableText workerId = true ↔
      StorableValues.storable jsonb (.claimNext claimToken taskTypes workerId leaseMinutes) =
        true := by
    simp [StorableValues.storable]
  rw [← hfits, htexts]
  constructor
  · intro h
    obtain ⟨tasks', row, hanswer, -⟩ := h
    obtain ⟨hnumbers, hstorable⟩ := StorableValues.answer_eq_ok_iff.1 hanswer
    exact ⟨hnumbers.trans (by rw [MachineNumbers.claimNext_ok hnumbers]), hstorable⟩
  · intro h
    obtain ⟨tasks', row, heq, hserved⟩ :=
      claimNext_spec now claimToken db.tasks taskTypes workerId leaseMinutes hlease
    refine ⟨tasks', row, StorableValues.answer_eq_ok_iff.2 ⟨?_, h.2⟩, hserved⟩
    refine h.1.trans ?_
    rw [MachineNumbers.claimed, heq]

end Limits

/-- A task whose lease has lapsed beside a younger one that is queued. -/
def lapsedBesideQueued : Db (List ℕ) :=
  let first := (handle {} emptyDb ⟨0, 0, .submitTask "a" "text_generation" [] none none⟩).1
  let claimed := (handle {} first
    ⟨1, 1, .claimNext "token-1" ["text_generation"] "worker-1" (some 1)⟩).1
  (handle {} claimed ⟨2, 2, .submitTask "b" "text_generation" [] none none⟩).1

theorem claimNext_served_lapsed :
    Answered {} true (fun _ => true) lapsedBesideQueued (minutes 2) (minutes 2) "token-2"
      ["text_generation"] "worker-2" (some 7) := by
  refine (claimNext_served_iff {} true (fun _ => true) lapsedBesideQueued (minutes 2) (minutes 2)
    "token-2" ["text_generation"] "worker-2" (some 7) fun n hn => ?_).2
      ⟨⟨fun _ n hn => ?_, fun task htask => ?_⟩, by decide, by decide⟩
  · cases hn
    decide
  · cases hn
    decide
  · cases htask
    decide

/-- An override of one minute more than the cast takes. -/
theorem claimNext_not_served :
    (∀ n, some (2147483648 : Int) = some n → 0 < n) ∧
      StorableValues.answer {} false (fun _ => true) lapsedBesideQueued
        ⟨minutes 2, minutes 2,
          .claimNext "token-2" ["text_generation"] "worker-2" (some 2147483648)⟩ =
        .error .dataError ∧
      ¬Answered {} false (fun _ => true) lapsedBesideQueued (minutes 2) (minutes 2) "token-2"
        ["text_generation"] "worker-2" (some 2147483648) := by
  have hfails : StorableValues.answer {} false (fun _ => true) lapsedBesideQueued
      ⟨minutes 2, minutes 2,
        .claimNext "token-2" ["text_generation"] "worker-2" (some 2147483648)⟩ =
      .error .dataError := rfl
  refine ⟨fun n hn => ?_, hfails, fun h => ?_⟩
  · cases hn
    decide
  · obtain ⟨tasks', row, hanswer, -⟩ := h
    cases hfails.symm.trans hanswer

end TaskQueue.ClaimNext

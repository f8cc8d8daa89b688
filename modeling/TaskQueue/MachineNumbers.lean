import TaskQueue.SerialRequests
import TaskQueue.Schemas

/-!
# Numbers of machine size

The requests of `SerialRequests` with the limits of what they compute with: `timedelta` and
`datetime` in the services, `integer` columns and casts in the database. A submission, a
claim and a heartbeat do arithmetic; the other requests are as they were.
-/

namespace TaskQueue.MachineNumbers
open KeyedTables TaskService WorkerService SerialRequests StepRuns

variable {Json : Type}

/-- `OverflowError`, and the errors of the database driver. -/
inductive Fault
  | overflowError
  | dataError
  deriving DecidableEq

/-- `datetime.min`, counted from 1970. -/
def datetimeMin : Time := -62135596800000000

/-- `datetime.max`. -/
def datetimeMax : Time := 253402300799999999

/-- A value of `datetime`. -/
def IsDatetime (t : Time) : Prop := datetimeMin ≤ t ∧ t ≤ datetimeMax

/-- A value of `timedelta`: at most 999999999 days. -/
def IsTimedelta (delta : Int) : Prop := -999999999 ≤ delta / days 1 ∧ delta / days 1 ≤ 999999999

/-- A value of the database's `integer`. -/
def IsInteger (n : Int) : Prop := -2147483648 ≤ n ∧ n ≤ 2147483647

instance (t : Time) : Decidable (IsDatetime t) := inferInstanceAs (Decidable (_ ∧ _))
instance (delta : Int) : Decidable (IsTimedelta delta) := inferInstanceAs (Decidable (_ ∧ _))
instance (n : Int) : Decidable (IsInteger n) := inferInstanceAs (Decidable (_ ∧ _))

/-- `now + timedelta(…)`. -/
def after (now : Time) (delta : Int) : Except Fault Time :=
  if IsTimedelta delta ∧ IsDatetime (now + delta) then .ok (now + delta)
  else .error .overflowError

/-- A number for an `integer` column or a `CAST`. -/
def integer (n : Int) : Except Fault Int :=
  if IsInteger n then .ok n else .error .dataError

/-- A number or null. -/
def integerOrNull : Option Int → Except Fault (Option Int)
  | none => .ok none
  | some n => (integer n).map some

/-- A timestamp that the database computes and the driver reads back. -/
def timestamp (t : Time) : Except Fault Time :=
  if IsDatetime t then .ok t else .error .dataError

section Services
variable (cfg : Settings)

/-- The insert of `submit_task`. -/
def insertTask (db : Db Json) (task : Task Json) : Db Json × Response Json :=
  if h : db.tasks.get task.id = none then
    ({ db with tasks := db.tasks.insertNew task h }, .task task)
  else (db, .rejected .integrityError)

/-- `submit_task`. -/
def submitTask (db : Db Json) (now createdAt : Time) (id : TaskId) (taskType : String)
    (payload : Json) (leaseMinutes retentionHours : Option Int) :
    Except Fault (Db Json × Response Json) :=
  match queuedRow cfg now createdAt id taskType payload leaseMinutes retentionHours with
  | .error e => .ok (db, .rejected e)
  | .ok task => do
    let expiresAt ← after now (hours (retentionHours.getD cfg.defaultRetentionHours))
    let leaseMinutes ← integer task.leaseMinutes
    return insertTask db { task with leaseMinutes := leaseMinutes, expiresAt := expiresAt }

/-- What `_CLAIM_SQL` assigns, with the lease that the database has computed. -/
def claimUntil (workerId claimToken : String) (now leaseExpiresAt : Time) (task : Task Json) :
    Task Json :=
  { claimRow workerId claimToken now none task with leaseExpiresAt := some leaseExpiresAt }

theorem claimUntil_id (workerId claimToken : String) (now leaseExpiresAt : Time)
    (task : Task Json) : (claimUntil workerId claimToken now leaseExpiresAt task).id = task.id :=
  rfl

/-- `claim_next`. Whether the database carries out the cast of the override where it finds no
candidate is up to its planner. -/
def claimNext (eager : Bool) (db : Db Json) (now : Time) (claimToken : String)
    (taskTypes : List String) (workerId : String) (leaseMinutes : Option Int) :
    Except Fault (Db Json × Response Json) :=
  if leaseMinutes.any (· ≤ 0) then
    .ok (db, .rejected (.taskServiceError "lease_minutes must be greater than zero"))
  else
    let swept := reclaim taskTypes now db.tasks
    match candidate taskTypes swept with
    | none => do
      if eager then
        let _ ← integerOrNull leaseMinutes
      return ({ db with tasks := swept }, .claimed none)
    | some task => do
      let override ← integerOrNull leaseMinutes
      let leaseExpiresAt ← timestamp (now + minutes (override.getD task.leaseMinutes))
      let tasks := swept.modify task.id (claimUntil workerId claimToken now leaseExpiresAt)
        (claimUntil_id workerId claimToken now leaseExpiresAt)
      return ({ db with tasks := tasks },
        .claimed (some (claimUntil workerId claimToken now leaseExpiresAt task)))

/-- The task columns that `heartbeat` assigns, as the commit sends them. -/
def beatWith (req : Heartbeat Json) (now leaseExpiresAt : Time) (current total : Option Int)
    (task : Task Json) : Task Json :=
  { beatTask req now task with
    progressCurrent := current
    progressTotal := total
    leaseExpiresAt := some leaseExpiresAt }

theorem beatWith_id (req : Heartbeat Json) (now leaseExpiresAt : Time) (current total : Option Int)
    (task : Task Json) : (beatWith req now leaseExpiresAt current total task).id = task.id := rfl

/-- `heartbeat`. -/
def heartbeat (db : Db Json) (now : Time) (req : Heartbeat Json) :
    Except Fault (Db Json × Response Json) :=
  match checkHeartbeat db.tasks db.workers req with
  | .error e => .ok (db, .rejected e)
  | .ok () =>
    let workers := db.workers.modify req.workerId (beatWorker req now) (beatWorker_id req now)
    match req.currentTaskId with
    | none => .ok (⟨db.tasks, workers⟩, .accepted)
    | some taskId => do
      let leaseExpiresAt ← after now (minutes activeLeaseMinutes)
      let current ← integerOrNull req.progressCurrent
      let total ← integerOrNull req.progressTotal
      return (⟨db.tasks.modify taskId (beatWith req now leaseExpiresAt current total)
        (beatWith_id req now leaseExpiresAt current total), workers⟩, .accepted)

end Services

section Requests
variable [EmptyCollection Json] (cfg : Settings)

/-- A request in numbers of machine size. -/
def answer (eager : Bool) (db : Db Json) (r : Timed Json) :
    Except Fault (Db Json × Response Json) :=
  match r.request with
  | .submitTask id taskType payload leaseMinutes retentionHours =>
    submitTask cfg db r.now r.later id taskType payload leaseMinutes retentionHours
  | .claimNext claimToken taskTypes workerId leaseMinutes =>
    claimNext eager db r.now claimToken taskTypes workerId leaseMinutes
  | .heartbeat req => heartbeat db r.now req
  | _ => .ok (handle cfg db r)

/-- The tables after a request; one that breaks off leaves them alone. -/
def tablesAfter (eager : Bool) (db : Db Json) (r : Timed Json) : Db Json :=
  match answer cfg eager db r with
  | .ok (db, _) => db
  | .error _ => db

/-- One request, provided the clock does not go back. -/
def step (eager : Bool) (s : Served Json) (r : Timed Json) : Option (Served Json) :=
  if s.clock ≤ r.now ∧ r.now ≤ r.later then some ⟨tablesAfter cfg eager s.db r, r.later⟩ else none

/-- The request does what it would do with unbounded numbers: it succeeds with exactly the
values it was given, or is refused by its service. -/
def Exact (eager : Bool) (s : Served Json) (r : Timed Json) : Prop :=
  answer cfg eager s.db r = .ok (handle cfg s.db r)

/-- The numbers of a request, and those that follow from them, are of machine size. -/
def Fits (eager : Bool) (s : Served Json) (r : Timed Json) : Prop :=
  match r.request with
  | .submitTask _ _ _ leaseMinutes retentionHours =>
    leaseMinutes.getD cfg.defaultLeaseMinutes ≤ 0 ∨
      retentionHours.getD cfg.defaultRetentionHours ≤ 0 ∨
      IsInteger (leaseMinutes.getD cfg.defaultLeaseMinutes) ∧
        IsTimedelta (hours (retentionHours.getD cfg.defaultRetentionHours)) ∧
        IsDatetime (r.now + hours (retentionHours.getD cfg.defaultRetentionHours))
  | .claimNext _ taskTypes _ leaseMinutes =>
    let found := candidate taskTypes (reclaim taskTypes r.now s.db.tasks)
    (∃ n, leaseMinutes = some n ∧ n ≤ 0) ∨
      ((eager = true ∨ found ≠ none) → ∀ n, leaseMinutes = some n → IsInteger n) ∧
        ∀ task, found = some task →
          IsDatetime (r.now + minutes (leaseMinutes.getD task.leaseMinutes))
  | .heartbeat req =>
    checkHeartbeat s.db.tasks s.db.workers req ≠ .ok () ∨ req.currentTaskId = none ∨
      IsDatetime (r.now + minutes activeLeaseMinutes) ∧
        (∀ n, req.progressCurrent = some n → IsInteger n) ∧
        ∀ n, req.progressTotal = some n → IsInteger n
  | _ => True

end Requests

/-- The last clock reading to which every admitted lease can be added. -/
def latestClaim : Time := datetimeMax - minutes 2147483647

/-- A claim that leaves the lease to the task stays within the calendar. -/
def Claimable (s : Served Json) : Prop :=
  ∀ task ∈ s.db.tasks.rows, ∀ now, datetimeMin ≤ now → now ≤ latestClaim →
    IsDatetime (now + minutes task.leaseMinutes)

section Limits

theorem ok_of_bind {α β : Type} {x : Except Fault α} {f : α → Except Fault β} {b : β}
    (h : x >>= f = .ok b) : ∃ a, x = .ok a ∧ f a = .ok b := by
  cases x with
  | error e => cases h
  | ok a => exact ⟨a, rfl, h⟩

theorem after_eq {now : Time} {delta : Int} (h : IsTimedelta delta ∧ IsDatetime (now + delta)) :
    after now delta = pure (now + delta) :=
  if_pos h

theorem after_overflows {now : Time} {delta : Int}
    (h : ¬(IsTimedelta delta ∧ IsDatetime (now + delta))) :
    after now delta = .error .overflowError :=
  if_neg h

theorem integerOrNull_eq {n : Option Int} (h : ∀ m, n = some m → IsInteger m) :
    integerOrNull n = pure n := by
  cases n with
  | none => rfl
  | some m => rw [integerOrNull, integer, if_pos (h m rfl)]; rfl

theorem integerOrNull_fails {n : Option Int} (h : ¬∀ m, n = some m → IsInteger m) :
    integerOrNull n = .error .dataError := by
  cases n with
  | none => exact absurd nofun h
  | some m =>
    have hm : ¬IsInteger m := fun hm => h fun m' hm' => Option.some.inj hm' ▸ hm
    rw [integerOrNull, integer, if_neg hm]
    rfl

theorem timestamp_eq {t : Time} (h : IsDatetime t) : timestamp t = pure t := if_pos h

theorem timestamp_fails {t : Time} (h : ¬IsDatetime t) : timestamp t = .error .dataError :=
  if_neg h

theorem after_ok {now t : Time} {delta : Int} (h : after now delta = .ok t) : t = now + delta := by
  rw [after] at h
  split_ifs at h
  exact (Except.ok.inj h).symm

theorem integer_ok {n m : Int} (h : integer n = .ok m) : m = n := by
  rw [integer] at h
  split_ifs at h
  exact (Except.ok.inj h).symm

theorem integerOrNull_ok {n m : Option Int} (h : integerOrNull n = .ok m) : m = n := by
  by_cases hn : ∀ k, n = some k → IsInteger k
  · rw [integerOrNull_eq hn] at h
    exact (Except.ok.inj h).symm
  · rw [integerOrNull_fails hn] at h
    cases h

theorem timestamp_ok {t u : Time} (h : timestamp t = .ok u) : u = t := by
  rw [timestamp] at h
  split_ifs at h
  exact (Except.ok.inj h).symm

end Limits

section Exactness
variable {cfg : Settings} {db : Db Json} {now createdAt : Time}

/-- A submission is refused, or its row has the numbers that it was given. -/
theorem queuedRow_cases (cfg : Settings) (now createdAt : Time) (id : TaskId)
    (taskType : String) (payload : Json) (leaseMinutes retentionHours : Option Int) :
    (∃ e, queuedRow cfg now createdAt id taskType payload leaseMinutes retentionHours = .error e ∧
      (leaseMinutes.getD cfg.defaultLeaseMinutes ≤ 0 ∨
        retentionHours.getD cfg.defaultRetentionHours ≤ 0)) ∨
    ∃ task, queuedRow cfg now createdAt id taskType payload leaseMinutes retentionHours =
        .ok task ∧
      0 < leaseMinutes.getD cfg.defaultLeaseMinutes ∧
      0 < retentionHours.getD cfg.defaultRetentionHours ∧
      task.leaseMinutes = leaseMinutes.getD cfg.defaultLeaseMinutes ∧
      task.expiresAt = now + hours (retentionHours.getD cfg.defaultRetentionHours) := by
  dsimp only [queuedRow]
  split_ifs with hlease hretention
  · exact .inl ⟨_, rfl, .inl hlease⟩
  · exact .inl ⟨_, rfl, .inr hretention⟩
  · exact .inr ⟨_, rfl, not_le.1 hlease, not_le.1 hretention, rfl, rfl⟩

/-- The tables and the response of a submission in unbounded numbers. -/
def submitted (cfg : Settings) (db : Db Json) (now createdAt : Time) (id : TaskId)
    (taskType : String) (payload : Json) (leaseMinutes retentionHours : Option Int) :
    Db Json × Response Json :=
  match TaskService.submitTask cfg now createdAt id db.tasks taskType payload leaseMinutes
      retentionHours with
  | .ok (tasks, task) => ({ db with tasks := tasks }, .task task)
  | .error e => (db, .rejected e)

theorem submitted_eq {id : TaskId} {taskType : String} {payload : Json}
    {leaseMinutes retentionHours : Option Int} {task : Task Json}
    (hrow : queuedRow cfg now createdAt id taskType payload leaseMinutes retentionHours =
      .ok task) :
    submitted cfg db now createdAt id taskType payload leaseMinutes retentionHours =
      insertTask db task := by
  rw [submitted, TaskService.submitTask, hrow, insertTask]
  dsimp only [bind, Except.bind]
  by_cases hnew : db.tasks.get task.id = none
  · rw [dif_pos hnew, dif_pos hnew]
    rfl
  · rw [dif_neg hnew, dif_neg hnew]
    rfl

theorem submitTask_eq_iff {id : TaskId} {taskType : String} {payload : Json}
    {leaseMinutes retentionHours : Option Int} :
    submitTask cfg db now createdAt id taskType payload leaseMinutes retentionHours =
        .ok (submitted cfg db now createdAt id taskType payload leaseMinutes retentionHours) ↔
      leaseMinutes.getD cfg.defaultLeaseMinutes ≤ 0 ∨
        retentionHours.getD cfg.defaultRetentionHours ≤ 0 ∨
        IsInteger (leaseMinutes.getD cfg.defaultLeaseMinutes) ∧
          IsTimedelta (hours (retentionHours.getD cfg.defaultRetentionHours)) ∧
          IsDatetime (now + hours (retentionHours.getD cfg.defaultRetentionHours)) := by
  rcases queuedRow_cases cfg now createdAt id taskType payload leaseMinutes retentionHours with
    ⟨e, hrow, hrefused⟩ | ⟨task, hrow, hl, hr, hlease, hexpires⟩
  · refine iff_of_true ?_ (by tauto)
    rw [submitTask, submitted, TaskService.submitTask, hrow]
    rfl
  · rw [submitted_eq hrow, submitTask, hrow, ← hlease]
    rw [← hlease] at hl
    simp only [not_le.2 hl, not_le.2 hr, false_or]
    by_cases hafter : IsTimedelta (hours (retentionHours.getD cfg.defaultRetentionHours)) ∧
        IsDatetime (now + hours (retentionHours.getD cfg.defaultRetentionHours))
    · rw [after_eq hafter, pure_bind, ← hexpires]
      by_cases hinteger : IsInteger task.leaseMinutes
      · rw [integer, if_pos hinteger]
        exact iff_of_true rfl ⟨hinteger, hafter.1, hexpires ▸ hafter.2⟩
      · rw [integer, if_neg hinteger]
        refine iff_of_false ?_ fun h => hinteger h.1
        intro hok
        cases hok
    · rw [after_overflows hafter]
      refine iff_of_false ?_ fun h => hafter h.2
      intro hok
      cases hok

/-- The tables and the response of a claim in unbounded numbers. -/
def claimed (db : Db Json) (now : Time) (claimToken : String) (taskTypes : List String)
    (workerId : String) (leaseMinutes : Option Int) : Db Json × Response Json :=
  match TaskService.claimNext now claimToken db.tasks taskTypes workerId leaseMinutes with
  | .ok (tasks, row) => ({ db with tasks := tasks }, .claimed row)
  | .error e => (db, .rejected e)

theorem claimUntil_eq {workerId claimToken : String} {leaseMinutes : Option Int}
    (task : Task Json) :
    claimUntil workerId claimToken now (now + minutes (leaseMinutes.getD task.leaseMinutes)) task =
      claimRow workerId claimToken now leaseMinutes task := rfl

/-- The candidate is the only row whose lease is computed. -/
theorem claimUntil_tables {tasks : TaskTable Json} {workerId claimToken : String}
    {taskTypes : List String} {leaseMinutes : Option Int} {task : Task Json}
    (hfound : candidate taskTypes tasks = some task) :
    tasks.modify task.id
        (claimUntil workerId claimToken now (now + minutes (leaseMinutes.getD task.leaseMinutes)))
        (claimUntil_id workerId claimToken now _) =
      tasks.modify task.id (claimRow workerId claimToken now leaseMinutes)
        (claimRow_id workerId claimToken now leaseMinutes) := by
  apply Table.modify_congr
  intro row hrow
  rw [(candidate_spec hfound).1] at hrow
  rw [← Option.some.inj hrow]
  exact claimUntil_eq task

theorem claimNext_eq_iff {eager : Bool} {claimToken : String} {taskTypes : List String}
    {workerId : String} {leaseMinutes : Option Int}
    (hpositive : ¬leaseMinutes.any (· ≤ 0) = true) :
    claimNext eager db now claimToken taskTypes workerId leaseMinutes =
        .ok (claimed db now claimToken taskTypes workerId leaseMinutes) ↔
      ((eager = true ∨ candidate taskTypes (reclaim taskTypes now db.tasks) ≠ none) →
          ∀ n, leaseMinutes = some n → IsInteger n) ∧
        ∀ task, candidate taskTypes (reclaim taskTypes now db.tasks) = some task →
          IsDatetime (now + minutes (leaseMinutes.getD task.leaseMinutes)) := by
  rw [claimNext, if_neg hpositive, claimed, TaskService.claimNext, if_neg hpositive]
  dsimp only
  cases hfound : candidate taskTypes (reclaim taskTypes now db.tasks) with
  | none =>
    have hdate : ∀ task : Task Json, none = some task →
        IsDatetime (now + minutes (leaseMinutes.getD task.leaseMinutes)) := fun task htask => by
      cases htask
    cases eager with
    | false => exact iff_of_true rfl ⟨by simp, hdate⟩
    | true =>
      by_cases hlease : ∀ n, leaseMinutes = some n → IsInteger n
      · rw [integerOrNull_eq hlease]
        exact iff_of_true rfl ⟨fun _ => hlease, hdate⟩
      · rw [integerOrNull_fails hlease]
        refine iff_of_false ?_ fun h => hlease (h.1 (.inl rfl))
        intro hok
        cases hok
  | some task =>
    have hsome : some task ≠ none := Option.some_ne_none task
    dsimp only
    by_cases hlease : ∀ n, leaseMinutes = some n → IsInteger n
    · rw [integerOrNull_eq hlease, pure_bind]
      by_cases hdate : IsDatetime (now + minutes (leaseMinutes.getD task.leaseMinutes))
      · refine iff_of_true ?_ ⟨fun _ => hlease, fun other hother => ?_⟩
        · rw [timestamp_eq hdate, pure_bind, claimUntil_tables hfound, claimUntil_eq]
          rfl
        · rw [← Option.some.inj hother]
          exact hdate
      · refine iff_of_false ?_ fun h => hdate (h.2 task rfl)
        rw [timestamp_fails hdate]
        intro hok
        cases hok
    · rw [integerOrNull_fails hlease]
      refine iff_of_false ?_ fun h => hlease (h.1 (.inr hsome))
      intro hok
      cases hok

/-- The tables and the response of a heartbeat in unbounded numbers. -/
def beaten (db : Db Json) (now : Time) (req : Heartbeat Json) : Db Json × Response Json :=
  match WorkerService.heartbeat now db.tasks db.workers req with
  | .ok (tasks, workers) => (⟨tasks, workers⟩, .accepted)
  | .error e => (db, .rejected e)

theorem heartbeat_eq_iff {req : Heartbeat Json} :
    heartbeat db now req = .ok (beaten db now req) ↔
      checkHeartbeat db.tasks db.workers req ≠ .ok () ∨ req.currentTaskId = none ∨
        IsDatetime (now + minutes activeLeaseMinutes) ∧
          (∀ n, req.progressCurrent = some n → IsInteger n) ∧
          ∀ n, req.progressTotal = some n → IsInteger n := by
  rw [heartbeat, beaten, WorkerService.heartbeat]
  cases hcheck : checkHeartbeat db.tasks db.workers req with
  | error e => exact iff_of_true rfl (.inl nofun)
  | ok u =>
    dsimp only
    cases htask : req.currentTaskId with
    | none =>
      refine iff_of_true ?_ (.inr (.inl rfl))
      rw [beatTasks, htask]
      rfl
    | some taskId =>
      have hdelta : IsTimedelta (minutes activeLeaseMinutes) := by decide
      simp only [ne_eq, not_true_eq_false, false_or, reduceCtorEq]
      by_cases hdate : IsDatetime (now + minutes activeLeaseMinutes)
      · rw [after_eq ⟨hdelta, hdate⟩, pure_bind]
        by_cases hcurrent : ∀ n, req.progressCurrent = some n → IsInteger n
        · rw [integerOrNull_eq hcurrent, pure_bind]
          by_cases htotal : ∀ n, req.progressTotal = some n → IsInteger n
          · rw [integerOrNull_eq htotal, pure_bind, beatTasks, htask]
            exact iff_of_true rfl ⟨hdate, hcurrent, htotal⟩
          · rw [integerOrNull_fails htotal]
            refine iff_of_false ?_ fun h => htotal h.2.2
            intro hok
            cases hok
        · rw [integerOrNull_fails hcurrent]
          refine iff_of_false ?_ fun h => hcurrent h.2.1
          intro hok
          cases hok
      · rw [after_overflows fun h => hdate h.2]
        refine iff_of_false ?_ fun h => hdate h.1
        intro hok
        cases hok

/-- A submission does nothing else than in unbounded numbers, unless it breaks off. -/
theorem submitTask_ok {id : TaskId} {taskType : String} {payload : Json}
    {leaseMinutes retentionHours : Option Int} {r : Db Json × Response Json}
    (h : submitTask cfg db now createdAt id taskType payload leaseMinutes retentionHours =
      .ok r) :
    r = submitted cfg db now createdAt id taskType payload leaseMinutes retentionHours := by
  rw [submitTask] at h
  rcases queuedRow_cases cfg now createdAt id taskType payload leaseMinutes retentionHours with
    ⟨e, hrow, -⟩ | ⟨task, hrow, -, -, -, hexpires⟩
  · rw [hrow] at h
    rw [submitted, TaskService.submitTask, hrow]
    exact (Except.ok.inj h).symm
  · rw [hrow] at h
    obtain ⟨expiresAt, hafter, h⟩ := ok_of_bind h
    obtain ⟨lease, hinteger, h⟩ := ok_of_bind h
    rw [submitted_eq hrow, ← Except.ok.inj h, after_ok hafter, integer_ok hinteger, ← hexpires]

theorem claimNext_ok {eager : Bool} {claimToken : String} {taskTypes : List String}
    {workerId : String} {leaseMinutes : Option Int} {r : Db Json × Response Json}
    (h : claimNext eager db now claimToken taskTypes workerId leaseMinutes = .ok r) :
    r = claimed db now claimToken taskTypes workerId leaseMinutes := by
  rw [claimNext] at h
  rw [claimed, TaskService.claimNext]
  by_cases hrefused : leaseMinutes.any (· ≤ 0) = true
  · rw [if_pos hrefused] at h
    rw [if_pos hrefused]
    exact (Except.ok.inj h).symm
  · rw [if_neg hrefused] at h
    rw [if_neg hrefused]
    dsimp only at h ⊢
    cases hfound : candidate taskTypes (reclaim taskTypes now db.tasks) with
    | none =>
      rw [hfound] at h
      cases eager with
      | false => exact (Except.ok.inj h).symm
      | true =>
        obtain ⟨override, -, h⟩ := ok_of_bind h
        exact (Except.ok.inj h).symm
    | some task =>
      rw [hfound] at h
      obtain ⟨override, hoverride, h⟩ := ok_of_bind h
      obtain ⟨leaseExpiresAt, hlease, h⟩ := ok_of_bind h
      obtain rfl := integerOrNull_ok hoverride
      obtain rfl := timestamp_ok hlease
      rw [← Except.ok.inj h, claimUntil_tables hfound, claimUntil_eq]

theorem heartbeat_ok {req : Heartbeat Json} {r : Db Json × Response Json}
    (h : heartbeat db now req = .ok r) : r = beaten db now req := by
  rw [heartbeat] at h
  rw [beaten, WorkerService.heartbeat]
  cases hcheck : checkHeartbeat db.tasks db.workers req with
  | error e =>
    rw [hcheck] at h
    exact (Except.ok.inj h).symm
  | ok u =>
    rw [hcheck] at h
    dsimp only at h
    cases htask : req.currentTaskId with
    | none =>
      rw [htask] at h
      dsimp only [bind, Except.bind, pure, Except.pure]
      rw [beatTasks, htask]
      exact (Except.ok.inj h).symm
    | some taskId =>
      rw [htask] at h
      obtain ⟨leaseExpiresAt, hafter, h⟩ := ok_of_bind h
      obtain ⟨current, hcurrent, h⟩ := ok_of_bind h
      obtain ⟨total, htotal, h⟩ := ok_of_bind h
      obtain rfl := after_ok hafter
      obtain rfl := integerOrNull_ok hcurrent
      obtain rfl := integerOrNull_ok htotal
      dsimp only [bind, Except.bind, pure, Except.pure]
      rw [beatTasks, htask]
      exact (Except.ok.inj h).symm

end Exactness

section Requests
variable [EmptyCollection Json] {cfg : Settings} {eager : Bool} {s : Served Json}

/-- A request that does not break off does what it does in unbounded numbers. -/
theorem answer_ok {db : Db Json} {r : Timed Json} {answered : Db Json × Response Json}
    (h : answer cfg eager db r = .ok answered) : answered = handle cfg db r := by
  obtain ⟨now, later, request⟩ := r
  cases request with
  | submitTask id taskType payload leaseMinutes retentionHours => exact submitTask_ok h
  | claimNext claimToken taskTypes workerId leaseMinutes => exact claimNext_ok h
  | heartbeat req => exact heartbeat_ok h
  | completeTask | failTask | registerWorker | cleanupTasks | cleanupWorkers | rescan =>
    exact (Except.ok.inj h).symm

/-- A request is exact if and only if its numbers fit. -/
theorem exact_iff_fits (r : Timed Json) : Exact cfg eager s r ↔ Fits cfg eager s r := by
  obtain ⟨now, later, request⟩ := r
  cases request with
  | completeTask | failTask | registerWorker | cleanupTasks | cleanupWorkers | rescan =>
    exact iff_of_true rfl trivial
  | heartbeat req => exact heartbeat_eq_iff
  | submitTask id taskType payload leaseMinutes retentionHours => exact submitTask_eq_iff
  | claimNext claimToken taskTypes workerId leaseMinutes =>
    by_cases hpositive : leaseMinutes.any (· ≤ 0) = true
    · refine iff_of_true ?_ (.inl ?_)
      · dsimp only [Exact, answer, handle]
        rw [claimNext, if_pos hpositive, TaskService.claimNext, if_pos hpositive]
      · obtain ⟨n, hn, hle⟩ := (Option.any_eq_true ..).1 hpositive
        exact ⟨n, hn, of_decide_eq_true hle⟩
    · have hnone : ¬∃ n, leaseMinutes = some n ∧ n ≤ 0 := by
        rintro ⟨n, rfl, hle⟩
        exact hpositive (decide_eq_true hle)
      exact (claimNext_eq_iff hpositive).trans (or_iff_right hnone).symm

end Requests

/-- The leases that admitted submissions have stored. -/
def Leases (tasks : TaskTable Json) : Prop :=
  ∀ task ∈ tasks.rows, 0 < task.leaseMinutes ∧ IsInteger task.leaseMinutes

section Leases
variable {tasks : TaskTable Json} {db : Db Json} {now createdAt : Time}

theorem leases_empty : Leases (Table.empty : TaskTable Json) := fun _ hmem => nomatch hmem

theorem Leases.modify (h : Leases tasks) {taskId : TaskId} {f : Task Json → Task Json}
    (hf : ∀ task, (f task).id = task.id)
    (hlease : ∀ task, (f task).leaseMinutes = task.leaseMinutes) :
    Leases (tasks.modify taskId f hf) := by
  refine Table.forall_modify h fun task hget => ?_
  rw [hlease]
  exact h task (Table.mem_of_get hget)

theorem Leases.reclaim (h : Leases tasks) (taskTypes : List String) :
    Leases (reclaim taskTypes now tasks) := by
  apply Table.forall_mapRows
  intro task htask
  split
  · exact h task htask
  · exact h task htask

theorem Leases.submitTask (h : Leases db.tasks) {cfg : Settings} {id : TaskId} {taskType : String}
    {payload : Json} {leaseMinutes retentionHours : Option Int} {r : Db Json × Response Json}
    (hr : MachineNumbers.submitTask cfg db now createdAt id taskType payload leaseMinutes
      retentionHours = .ok r) : Leases r.1.tasks := by
  rw [MachineNumbers.submitTask] at hr
  cases hrow : queuedRow cfg now createdAt id taskType payload leaseMinutes retentionHours with
  | error e =>
    rw [hrow] at hr
    cases hr
    exact h
  | ok task =>
    rw [hrow] at hr
    obtain ⟨-, -, hpositive⟩ := queuedRow_ok hrow
    obtain ⟨expiresAt, -, hr⟩ := ok_of_bind hr
    obtain ⟨lease, hlease, hr⟩ := ok_of_bind hr
    rw [integer] at hlease
    split_ifs at hlease with hinteger
    cases hlease
    cases hr
    dsimp only [insertTask]
    split
    · intro row hmem
      rcases List.mem_append.1 hmem with hmem | hmem
      · exact h row hmem
      · rw [List.mem_singleton.1 hmem]
        exact ⟨hpositive, hinteger⟩
    · exact h

theorem Leases.claimNext (h : Leases db.tasks) {eager : Bool} {claimToken : String}
    {taskTypes : List String} {workerId : String} {leaseMinutes : Option Int}
    {r : Db Json × Response Json}
    (hr : MachineNumbers.claimNext eager db now claimToken taskTypes workerId leaseMinutes =
      .ok r) : Leases r.1.tasks := by
  have hswept : Leases (TaskService.reclaim taskTypes now db.tasks) := h.reclaim taskTypes
  rw [MachineNumbers.claimNext] at hr
  split at hr
  · cases hr
    exact h
  · dsimp only at hr
    split at hr
    · split at hr
      · obtain ⟨override, -, hr⟩ := ok_of_bind hr
        cases hr
        exact hswept
      · cases hr
        exact hswept
    · obtain ⟨override, -, hr⟩ := ok_of_bind hr
      obtain ⟨leaseExpiresAt, -, hr⟩ := ok_of_bind hr
      cases hr
      exact hswept.modify (claimUntil_id workerId claimToken now leaseExpiresAt) fun _ => rfl

theorem Leases.heartbeat (h : Leases db.tasks) {req : Heartbeat Json} {r : Db Json × Response Json}
    (hr : MachineNumbers.heartbeat db now req = .ok r) : Leases r.1.tasks := by
  rw [MachineNumbers.heartbeat] at hr
  split at hr
  · cases hr
    exact h
  · dsimp only at hr
    split at hr
    · cases hr
      exact h
    · obtain ⟨leaseExpiresAt, -, hr⟩ := ok_of_bind hr
      obtain ⟨current, -, hr⟩ := ok_of_bind hr
      obtain ⟨total, -, hr⟩ := ok_of_bind hr
      cases hr
      exact h.modify (beatWith_id req now leaseExpiresAt current total) fun _ => rfl

theorem Leases.settleTask (h : Leases tasks) {taskId : TaskId} {claimToken : String}
    {outcome : Outcome Json} {r : TaskTable Json × Task Json}
    (hr : TaskService.settleTask now tasks taskId claimToken outcome = .ok r) : Leases r.1 := by
  obtain ⟨task, -, -, -, rfl⟩ := settleTask_ok_iff.1 hr
  refine h.modify (settleRow_id outcome now) fun row => ?_
  cases outcome <;> rfl

end Leases

section Runs
variable [EmptyCollection Json] {cfg : Settings} {eager : Bool}

theorem leases_after {db : Db Json} (h : Leases db.tasks) (r : Timed Json) :
    Leases (tablesAfter cfg eager db r).tasks := by
  obtain ⟨now, later, request⟩ := r
  rw [tablesAfter]
  cases hanswer : answer cfg eager db ⟨now, later, request⟩ with
  | error e => exact h
  | ok served =>
    cases request with
    | submitTask id taskType payload leaseMinutes retentionHours => exact h.submitTask hanswer
    | claimNext claimToken taskTypes workerId leaseMinutes => exact h.claimNext hanswer
    | heartbeat req => exact h.heartbeat hanswer
    | completeTask taskId claimToken result =>
      obtain rfl := (Except.ok.inj hanswer).symm
      dsimp only [handle]
      split
      · exact h.settleTask ‹_›
      · exact h
    | failTask taskId claimToken error =>
      obtain rfl := (Except.ok.inj hanswer).symm
      dsimp only [handle]
      split
      · exact h.settleTask ‹_›
      · exact h
    | registerWorker req =>
      obtain rfl := (Except.ok.inj hanswer).symm
      dsimp only [handle]
      split <;> exact h
    | cleanupTasks =>
      obtain rfl := (Except.ok.inj hanswer).symm
      exact fun task htask => h task (List.mem_filter.1 htask).1
    | cleanupWorkers =>
      obtain rfl := (Except.ok.inj hanswer).symm
      exact h
    | rescan rank =>
      obtain rfl := (Except.ok.inj hanswer).symm
      exact fun task htask => h task ((List.perm_insertionSort _ _).mem_iff.1 htask)

theorem leases_step {s t : Served Json} {r : Timed Json} (h : Leases s.db.tasks)
    (hstep : step cfg eager s r = some t) : Leases t.db.tasks := by
  unfold step at hstep
  split_ifs at hstep
  cases hstep
  exact leases_after h r

omit [EmptyCollection Json] in
/-- A lease of at most 2147483647 minutes added to a clock reading far from the end. -/
theorem claimable_of_leases {s : Served Json} (h : Leases s.db.tasks) : Claimable s := by
  intro task htask now hmin hmax
  obtain ⟨hpositive, -, hlease⟩ := h task htask
  have hlow : (-62135596800000000 : Int) ≤ now := hmin
  have hhigh : (253402300799999999 - 2147483647 * 60000000 : Int) ≥ now := hmax
  have hsum : (-62135596800000000 : Int) ≤ now + task.leaseMinutes * 60000000 ∧
      (253402300799999999 : Int) ≥ now + task.leaseMinutes * 60000000 := by omega
  exact hsum

/-- A request is served exactly as it asks if and only if its numbers fit, in every run from
any tables; and in a run from the empty ones no admitted lease is too long for a claim that
comes before `latestClaim`. -/
theorem numbers_fit_iff (cfg : Settings) (eager : Bool) (requests : List (Timed Json)) :
    (∀ s, Along (step cfg eager) (Exact cfg eager) s requests ↔
      Along (step cfg eager) (Fits cfg eager) s requests) ∧
    ∀ clock, Throughout (step cfg eager) Claimable (start clock) requests := by
  constructor
  · intro s
    exact along_congr (I := fun _ => True) (fun _ _ _ _ _ => trivial)
      (fun s r t _ _ => exact_iff_fits r) trivial requests
  · intro clock
    have hleases : Throughout (step cfg eager) (fun s => Leases s.db.tasks) (start clock)
        requests :=
      throughout_invariant (fun s r t h hstep => leases_step h hstep) leases_empty requests
    exact hleases.mono fun s h => claimable_of_leases h

end Runs

/-- A lease of one minute more than the column takes. -/
def longLease : Schemas.TaskSubmitRequest (List ℕ) where
  taskType := "image_generation"
  payload := []
  leaseMinutes := some 2147483648

/-- A retention that ends after the last year of `datetime`. -/
def longRetention : Schemas.TaskSubmitRequest (List ℕ) where
  taskType := "image_generation"
  payload := []
  retentionHours := some 100000000

/-- The submission that a request asks for. -/
def submission (req : Schemas.TaskSubmitRequest (List ℕ)) : Timed (List ℕ) :=
  ⟨0, 0, .submitTask "a" req.taskType req.payload req.leaseMinutes req.retentionHours⟩

/-- The request models let both through, and both break off. -/
theorem admitted_numbers_overflow :
    (longLease.valid = true ∧ ¬Exact {} false (start 0) (submission longLease)) ∧
      longRetention.valid = true ∧ ¬Exact {} false (start 0) (submission longRetention) := by
  have hlease : answer {} false emptyDb (submission longLease) = .error .dataError := rfl
  have hretention : answer {} false emptyDb (submission longRetention) =
      .error .overflowError := rfl
  refine ⟨⟨rfl, fun hexact => ?_⟩, rfl, fun hexact => ?_⟩
  · cases hlease.symm.trans hexact
  · cases hretention.symm.trans hexact

end TaskQueue.MachineNumbers

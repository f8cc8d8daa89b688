import TaskQueue.StepRuns
import Mathlib.Data.List.Basic

/-!
# The loop of the worker

The loop of `main` in `workers/local_worker.py` with its three calls of the queue client.
What the server answers, what the work comes to and how the idle maintenance ends are
labels. Of `httpx` it is used that a network failure and a status outside 2xx raise an
`HTTPError`, which has an ASCII `repr`, and that reading a body that is not JSON raises a
`ValueError`.
-/

namespace TaskQueue.WorkerLoop

/-- A JSON document, with the text of its numbers. -/
inductive Json
  | null
  | bool (b : Bool)
  | number (text : String)
  | string (s : String)
  | array (items : List Json)
  | object (fields : List (String × Json))

/-- `document[key]`; none where this raises. Of equal keys the last one counts. -/
def Json.field (key : String) : Json → Option Json
  | .object fields => (fields.reverse.find? fun entry => entry.1 = key).map Prod.snd
  | _ => none

inductive Body
  | notJson
  | json (document : Json)

/-- What becomes of a request. -/
inductive Reply
  | networkError
  | response (status : ℕ) (body : Body)

/-- A call of `complete_task` or `fail_task`. -/
inductive Report
  | completeTask (taskId claimToken result : Json)
  | failTask (taskId claimToken : Json) (error : String)

def Report.taskId : Report → Json
  | .completeTask taskId _ _ => taskId
  | .failTask taskId _ _ => taskId

/-- What depends on the machine and the libraries: whether the console can show the type
and the id of a task, and the text of an exception; whether `response.json()` returns a
document, which it does not if that is nested too deeply or has an integer of too many digits;
and whether a report makes a request that can be sent. -/
structure Env where
  printable : Json → Bool := fun _ => true
  shows : String → Bool := fun _ => true
  parses : Json → Bool := fun _ => true
  sendable : Report → Bool := fun _ => true

/-- `valueError` stands for what `response.json()` raises, a `RecursionError` included. -/
inductive ClientError
  | httpError
  | valueError
  | unsent
  deriving DecidableEq

/-- `response.raise_for_status()` and `response.json()`. -/
def readJson (env : Env) (status : ℕ) (body : Body) : Except ClientError Json :=
  if 200 ≤ status ∧ status < 300 then
    match body with
    | .notJson => .error .valueError
    | .json document => if env.parses document then .ok document else .error .valueError
  else .error .httpError

/-- `TaskQueueClient.claim_next`. -/
def clientClaimNext (env : Env) : Reply → Except ClientError Json
  | .networkError => .error .httpError
  | .response status body => if status = 204 then .ok .null else readJson env status body

/-- What `claim_next_task` returns: a task, or none for an empty or unreachable queue. -/
def claimNextTask (env : Env) (reply : Reply) : Except ClientError (Option Json) :=
  match clientClaimNext env reply with
  | .ok .null => .ok none
  | .ok task => .ok (some task)
  | .error .httpError => .ok none
  | .error e => .error e

/-- What the loop reads of a claimed task. -/
structure ClaimedTask where
  id : Json
  claimToken : Json
  taskType : String

/-- How the work ends. The text of an exception is none where `str` raises as well, or yields
lone surrogates, which no console shows and no request carries. -/
inductive Outcome
  | result (result : Json)
  | raised (text : Option String)

/-- `TaskQueueClient.complete_task` and `fail_task`. -/
def clientReport (env : Env) (report : Report) (reply : Reply) : Except ClientError Json :=
  if ¬env.sendable report then .error .unsent
  else match reply with
    | .networkError => .error .httpError
    | .response status body => readJson env status body

/-- Whether `report_result` or `report_failure` returns. -/
def reportReturns (env : Env) (report : Report) (reply : Reply) : Bool :=
  match clientReport env report reply with
  | .ok _ => true
  | .error e => e = .httpError

/-- The log line and the heartbeat update for a new task, none where one of them raises. -/
def prepare (env : Env) (task : Json) : Option ClaimedTask :=
  match task.field "task_type", task.field "id", task.field "claim_token" with
  | some (.string taskType), some id, some claimToken =>
    if env.printable task then some ⟨id, claimToken, taskType⟩ else none
  | _, _, _ => none

/-- The report of an outcome. An exception is logged first, with its text; none where it has
none or the console cannot show it. -/
def reportOf (env : Env) (task : ClaimedTask) : Outcome → Option Report
  | .result result => some (.completeTask task.id task.claimToken result)
  | .raised text => (text.filter env.shows).map (.failTask task.id task.claimToken)

/-- The calls of the client, with the task that a claim has brought. -/
inductive Call
  | claimNext (task : Option Json)
  | report (report : Report)
  | heartbeat

inductive Phase
  | polling
  | idle
  | working (task : ClaimedTask)
  | reporting (report : Report)
  | ended

structure Loop where
  phase : Phase
  calls : List Call

inductive Label
  | claimNext (reply : Reply)
  | maintain (raises : Bool)
  | runTask (outcome : Outcome)
  | report (reply : Reply)
  | heartbeat (reply : Reply)

variable (env : Env)

/-- One step of the loop, or a heartbeat of the other thread, which survives every answer. -/
def step (s : Loop) : Label → Option Loop
  | .claimNext reply =>
    match s.phase with
    | .polling =>
      match claimNextTask env reply with
      | .error _ => some ⟨.ended, s.calls ++ [.claimNext none]⟩
      | .ok none => some ⟨.idle, s.calls ++ [.claimNext none]⟩
      | .ok (some task) =>
        match prepare env task with
        | none => some ⟨.ended, s.calls ++ [.claimNext (some task)]⟩
        | some claimed => some ⟨.working claimed, s.calls ++ [.claimNext (some task)]⟩
    | _ => none
  | .maintain raises =>
    match s.phase with
    | .idle => some { s with phase := if raises then .ended else .polling }
    | _ => none
  | .runTask outcome =>
    match s.phase with
    | .working task =>
      match reportOf env task outcome with
      | none => some { s with phase := .ended }
      | some report => some { s with phase := .reporting report }
    | _ => none
  | .report reply =>
    match s.phase with
    | .reporting report => some {
        phase := if reportReturns env report reply then .polling else .ended
        calls := s.calls ++ [.report report] }
    | _ => none
  | .heartbeat _ => some { s with calls := s.calls ++ [.heartbeat] }

/-- The worker as it enters the loop. -/
def start : Loop := ⟨.polling, []⟩

end TaskQueue.WorkerLoop

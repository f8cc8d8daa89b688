import TaskQueue.LeaseRefinement
import TaskQueue.StorableValues
import TaskQueue.WorkerLoop
import TaskQueue.PythonStrings
import Mathlib.Logic.Function.Basic

/-!
# The queue and its workers as one system

One server and any number of worker processes that run the loop of
`workers/local_worker.py`. A call of a worker reaches the server or not, at once or after the
worker has given it up, and its answer reaches the worker or not. Everything else that is
asked of the server, heartbeats and other claimants included, is a request of the
environment. Each restart of a worker is a process of its own.

Two things are left out. The server handles one request after the other, so that what two
transactions at the same time can do to a row is not in the runs. And tasks are completed and
failed by the processes only: a claimant of the environment ends no task.
-/

namespace TaskQueue.WorkerCluster
open SerialRequests LeaseRefinement WorkerLoop PythonStrings
open StorableValues (storable)

instance : EmptyCollection Json := ⟨.object []⟩

/-- What a process is started with. -/
structure Config where
  workerId : String
  taskTypes : List String

/-- What a deployment fixes: the settings of the server, the documents that its database
takes, what depends on the machines of the workers, the configured processes, and the text of
a timestamp. -/
structure Deployment where
  settings : Settings
  jsonb : Json → Bool
  env : Env
  config : ℕ → Config
  isoformat : Time → String

/-- A column that may be null. -/
def nullable {α : Type} (write : α → Json) : Option α → Json
  | none => .null
  | some value => write value

section Documents
variable (isoformat : Time → String)

/-- The columns of `_serialize_task`, and of the `RETURNING` list but for its token. -/
def taskFields (task : Task Json) : List (String × Json) :=
  let time (t : Time) : Json := .string (isoformat t)
  let number (n : Int) : Json := .number (toString n)
  [("id", .string task.id),
    ("task_type", .string task.taskType),
    ("payload", task.payload),
    ("lease_minutes", number task.leaseMinutes),
    ("status", .string task.status.text),
    ("result", nullable id task.result),
    ("error", nullable .string task.error),
    ("claimed_by", nullable .string task.claimedBy),
    ("created_at", time task.createdAt),
    ("claimed_at", nullable time task.claimedAt),
    ("lease_expires_at", nullable time task.leaseExpiresAt),
    ("completed_at", nullable time task.completedAt),
    ("progress_stage", nullable .string task.progressStage),
    ("progress_message", nullable .string task.progressMessage),
    ("progress_current", nullable number task.progressCurrent),
    ("progress_total", nullable number task.progressTotal),
    ("progress_updated_at", nullable time task.progressUpdatedAt),
    ("expires_at", time task.expiresAt)]

/-- `_serialize_task`. -/
def taskDocument (task : Task Json) : Json := .object (taskFields isoformat task)

/-- The row that `claim_next` returns. -/
def claimDocument (task : Task Json) : Json :=
  .object (taskFields isoformat task ++ [("claim_token", nullable .string task.claimToken)])

/-- The text of an exception of the services. -/
def errorText : ServiceError → String
  | .taskServiceError message => message
  | .workerServiceError message => message
  | .workerIdTaken message => message
  | .integrityError => "Internal Server Error"

/-- The answer of the claim route and of the two outcome routes. The calls of the loop get
no other response. -/
def replyTo : Response Json → Reply
  | .claimed none => .response 204 .notJson
  | .claimed (some row) => .response 200 (.json (claimDocument isoformat row))
  | .task row => .response 200 (.json (taskDocument isoformat row))
  | .accepted => .response 200 (.json .null)
  | .rejected error =>
    .response 409 (.json (.object [("detail", .string (errorText error))]))

end Documents

/-- The answer to a request that does not fit its model. -/
def unprocessable : Reply := .response 422 (.json (.object [("detail", .array [])]))

/-- The answer brings no document: it is a failure of the network, an error status, or a
response that some party on the way has made up. -/
def Reply.bare : Reply → Bool
  | .networkError => true
  | .response _ .notJson => true
  | .response status (.json _) => !(200 ≤ status && status < 300)

/-- A call of the loop that touches the queue. -/
inductive Sent
  | claim
  | report (report : Report)

/-- The call that a process makes next, none where it makes none or cannot send it. -/
def sentOf (env : Env) : Phase → Option Sent
  | .polling => some .claim
  | .reporting report => if env.sendable report then some (.report report) else none
  | _ => none

/-- The answer to a request with a value that the database refuses. -/
def internalError : Reply := .response 500 .notJson

/-- The request as the server reads it, none where a field has not the type that the route
or its model asks for. -/
def asked (config : Config) (claimToken : String) : Sent → Option (Request Json)
  | .claim =>
    some (.claimNext claimToken (split (",".intercalate config.taskTypes) ',')
      config.workerId none)
  | .report (.completeTask (.string taskId) (.string token) (.object fields)) =>
    some (.completeTask taskId token (.object fields))
  | .report (.failTask (.string taskId) (.string token) error) =>
    some (.failTask taskId token error)
  | .report _ => none

/-- The request as it is carried out, none also where the database refuses one of its values. -/
def requestOf (jsonb : Json → Bool) (config : Config) (claimToken : String) (sent : Sent) :
    Option (Request Json) :=
  (asked config claimToken sent).filter (storable jsonb)

/-- The answer where nothing is carried out. -/
def refusal (config : Config) (claimToken : String) (sent : Sent) : Reply :=
  if (asked config claimToken sent).isSome then internalError else unprocessable

theorem bare_refusal (config : Config) (claimToken : String) (sent : Sent) :
    Reply.bare (refusal config claimToken sent) = true := by
  unfold refusal
  split <;> rfl

theorem asked_of_requestOf {jsonb : Json → Bool} {config : Config} {claimToken : String}
    {sent : Sent} {request : Request Json}
    (h : requestOf jsonb config claimToken sent = some request) :
    asked config claimToken sent = some request :=
  (Option.filter_eq_some_iff.1 h).1

/-- The task tables with the processes around them. `log` are the requests that the server
has handled, `grants` the rows that claims were answered with, each with the process that
had made the claim; the step function reads neither but to draw fresh uuids. -/
structure Cluster where
  server : Served Json
  log : List (Timed Json)
  grants : List (Option ℕ × Task Json)
  loops : ℕ → Loop
  inFlight : List (ℕ × Sent)

/-- What becomes of a call: it is handled and its answer heard, or handled while the process
hears something else, or given up by the process; then it may be handled later, or never. -/
inductive Fate
  | answered (now later : Time) (claimToken : String)
  | unanswered (now later : Time) (claimToken : String) (reply : Reply)
  | delayed (reply : Reply)

inductive Label
  | request (r : Timed Json)
  | call (process : ℕ) (fate : Fate)
  | arrive (index : ℕ) (now later : Time) (claimToken : String)
  | maintain (process : ℕ) (raises : Bool)
  | runTask (process : ℕ) (outcome : Outcome)
  | kill (process : ℕ)

instance (rs : List (Timed Json)) : Decidable (FreshDraws rs) :=
  decidable_of_iff ((rs.filterMap fun r => submitted r.request).Nodup ∧
      (rs.filterMap fun r => drawn r.request).Nodup)
    ⟨fun h => ⟨h.1, h.2⟩, fun h => ⟨h.ids, h.tokens⟩⟩

/-- The request ends a task. -/
def endsTask {Doc : Type} : Request Doc → Bool
  | .completeTask .. => true
  | .failTask .. => true
  | _ => false

/-- The row that a response hands out. -/
def handedRow {Doc : Type} : Response Doc → List (Task Doc)
  | .claimed (some row) => [row]
  | _ => []

section Steps
variable (d : Deployment) (s : Cluster)

/-- The server handles a request, with uuids that were never drawn before. -/
def serve (sender : Option ℕ) (r : Timed Json) : Option (Cluster × Response Json) :=
  if FreshDraws (s.log ++ [r]) then
    (step d.settings s.server r).map fun server =>
      let response := (handle d.settings s.server.db r).2
      ({ s with
          server := server
          log := s.log ++ [r]
          grants := s.grants ++ (handedRow response).map fun row => (sender, row) },
        response)
  else none

def setLoop (process : ℕ) (loop : Loop) : Cluster :=
  { s with loops := Function.update s.loops process loop }

@[simp] theorem setLoop_self (process : ℕ) (loop : Loop) :
    (setLoop s process loop).loops process = loop := Function.update_self ..

theorem setLoop_of_ne {process i : ℕ} (h : i ≠ process) (loop : Loop) :
    (setLoop s process loop).loops i = s.loops i := Function.update_of_ne h ..

/-- The label of the loop for the answer to its call. -/
def answerLabel : Phase → Reply → WorkerLoop.Label
  | .polling, reply => .claimNext reply
  | _, reply => .report reply

/-- The answer to its call reaches the process. -/
def hear (process : ℕ) (reply : Reply) : Option Cluster :=
  let loop := s.loops process
  (WorkerLoop.step d.env loop (answerLabel loop.phase reply)).map (setLoop s process)

/-- A process makes its call. A report that cannot be sent ends the process. -/
def callStep (process : ℕ) (fate : Fate) : Option Cluster :=
  match sentOf d.env (s.loops process).phase with
  | none => match (s.loops process).phase with
    | .reporting _ => hear d s process .networkError
    | _ => none
  | some sent => match fate with
    | .answered now later claimToken =>
      match requestOf d.jsonb (d.config process) claimToken sent with
      | none => hear d s process (refusal (d.config process) claimToken sent)
      | some request =>
        (serve d s (some process) ⟨now, later, request⟩).bind fun (t, response) =>
          hear d t process (replyTo d.isoformat response)
    | .unanswered now later claimToken reply =>
      if Reply.bare reply then
        match requestOf d.jsonb (d.config process) claimToken sent with
        | none => hear d s process reply
        | some request =>
          (serve d s (some process) ⟨now, later, request⟩).bind fun (t, _) =>
            hear d t process reply
      else none
    | .delayed reply =>
      if Reply.bare reply then
        hear d { s with inFlight := s.inFlight ++ [(process, sent)] } process reply
      else none

/-- A call that its process has given up reaches the server. -/
def arriveStep (index : ℕ) (now later : Time) (claimToken : String) : Option Cluster :=
  match s.inFlight[index]? with
  | none => none
  | some (process, sent) =>
    let s := { s with inFlight := s.inFlight.eraseIdx index }
    match requestOf d.jsonb (d.config process) claimToken sent with
    | none => some s
    | some request => (serve d s (some process) ⟨now, later, request⟩).map Prod.fst

/-- One step of the system. A request of the environment that ends a task is no step. -/
def clusterStep : Label → Option Cluster
  | .request r => if endsTask r.request then none else (serve d s none r).map Prod.fst
  | .call process fate => callStep d s process fate
  | .arrive index now later claimToken => arriveStep d s index now later claimToken
  | .maintain process raises =>
    (WorkerLoop.step d.env (s.loops process) (.maintain raises)).map (setLoop s process)
  | .runTask process outcome =>
    (WorkerLoop.step d.env (s.loops process) (.runTask outcome)).map (setLoop s process)
  | .kill process => some (setLoop s process { s.loops process with phase := .ended })

variable {d s}

theorem serve_inv {sender : Option ℕ} {r : Timed Json} {t : Cluster} {response : Response Json}
    (h : serve d s sender r = some (t, response)) :
    FreshDraws (s.log ++ [r]) ∧ ∃ server, step d.settings s.server r = some server ∧
      response = (handle d.settings s.server.db r).2 ∧
      t = { s with
        server := server
        log := s.log ++ [r]
        grants := s.grants ++ (handedRow response).map fun row => (sender, row) } := by
  unfold serve at h
  split_ifs at h with hfresh
  obtain ⟨server, hserver, heq⟩ := Option.map_eq_some_iff.1 h
  cases heq
  exact ⟨hfresh, server, hserver, rfl, rfl⟩

theorem hear_inv {process : ℕ} {reply : Reply} {t : Cluster} (h : hear d s process reply = some t) :
    ∃ loop, WorkerLoop.step d.env (s.loops process)
        (answerLabel (s.loops process).phase reply) = some loop ∧ t = setLoop s process loop := by
  obtain ⟨loop, hloop, heq⟩ := Option.map_eq_some_iff.1 h
  exact ⟨loop, hloop, heq.symm⟩

end Steps

/-- What one step of the system can be. -/
inductive ClusterMove (d : Deployment) (s t : Cluster) : Label → Prop
  | environment {r response} (other : endsTask r.request = false)
      (served : serve d s none r = some (t, response)) : ClusterMove d s t (.request r)
  | served {process fate sent claimToken request now later m response reply}
      (call : sentOf d.env (s.loops process).phase = some sent)
      (asked : requestOf d.jsonb (d.config process) claimToken sent = some request)
      (served : serve d s (some process) ⟨now, later, request⟩ = some (m, response))
      (answer : reply = replyTo d.isoformat response ∨ Reply.bare reply = true)
      (heard : hear d m process reply = some t) : ClusterMove d s t (.call process fate)
  | unserved {process fate reply} (bare : Reply.bare reply = true)
      (heard : hear d s process reply = some t) : ClusterMove d s t (.call process fate)
  | delayed {process fate sent reply}
      (call : sentOf d.env (s.loops process).phase = some sent) (bare : Reply.bare reply = true)
      (heard : hear d { s with inFlight := s.inFlight ++ [(process, sent)] } process reply =
        some t) : ClusterMove d s t (.call process fate)
  | arrived {index now later process sent claimToken request response}
      (found : s.inFlight[index]? = some (process, sent))
      (asked : requestOf d.jsonb (d.config process) claimToken sent = some request)
      (served : serve d { s with inFlight := s.inFlight.eraseIdx index } (some process)
        ⟨now, later, request⟩ = some (t, response)) :
      ClusterMove d s t (.arrive index now later claimToken)
  | refused {index now later claimToken}
      (gone : t = { s with inFlight := s.inFlight.eraseIdx index }) :
      ClusterMove d s t (.arrive index now later claimToken)
  | maintained {process raises loop}
      (moved : WorkerLoop.step d.env (s.loops process) (.maintain raises) = some loop)
      (result : t = setLoop s process loop) : ClusterMove d s t (.maintain process raises)
  | worked {process outcome loop}
      (moved : WorkerLoop.step d.env (s.loops process) (.runTask outcome) = some loop)
      (result : t = setLoop s process loop) : ClusterMove d s t (.runTask process outcome)
  | killed {process}
      (result : t = setLoop s process { s.loops process with phase := .ended }) :
      ClusterMove d s t (.kill process)

theorem callStep_move {d : Deployment} {s t : Cluster} {process : ℕ} {fate : Fate}
    (h : callStep d s process fate = some t) : ClusterMove d s t (.call process fate) := by
  unfold callStep at h
  cases hsent : sentOf d.env (s.loops process).phase with
  | none =>
    simp only [hsent] at h
    split at h
    · exact .unserved rfl h
    · cases h
  | some sent =>
    simp only [hsent] at h
    cases fate with
    | answered now later claimToken =>
      cases hrequest : requestOf d.jsonb (d.config process) claimToken sent with
      | none =>
        simp only [hrequest] at h
        exact .unserved (bare_refusal _ _ _) h
      | some request =>
        simp only [hrequest] at h
        obtain ⟨⟨m, response⟩, hserved, hheard⟩ := Option.bind_eq_some_iff.1 h
        exact .served hsent hrequest hserved (.inl rfl) hheard
    | unanswered now later claimToken reply =>
      simp only at h
      split_ifs at h with hbare
      cases hrequest : requestOf d.jsonb (d.config process) claimToken sent with
      | none =>
        simp only [hrequest] at h
        exact .unserved hbare h
      | some request =>
        simp only [hrequest] at h
        obtain ⟨⟨m, response⟩, hserved, hheard⟩ := Option.bind_eq_some_iff.1 h
        exact .served hsent hrequest hserved (.inr hbare) hheard
    | delayed reply =>
      simp only at h
      split_ifs at h with hbare
      exact .delayed hsent hbare h

theorem clusterStep_move {d : Deployment} {s t : Cluster} {l : Label}
    (h : clusterStep d s l = some t) : ClusterMove d s t l := by
  cases l with
  | request r =>
    simp only [clusterStep] at h
    split_ifs at h with hends
    obtain ⟨⟨m, response⟩, hserved, rfl⟩ := Option.map_eq_some_iff.1 h
    exact .environment (Bool.eq_false_iff.2 hends) hserved
  | call process fate => exact callStep_move h
  | arrive index now later claimToken =>
    simp only [clusterStep, arriveStep] at h
    split at h
    · cases h
    · rename_i process sent hfound
      cases hrequest : requestOf d.jsonb (d.config process) claimToken sent with
      | none =>
        simp only [hrequest] at h
        exact .refused (Option.some.inj h).symm
      | some request =>
        simp only [hrequest] at h
        obtain ⟨⟨m, response⟩, hserved, rfl⟩ := Option.map_eq_some_iff.1 h
        exact .arrived hfound hrequest hserved
  | maintain process raises =>
    obtain ⟨loop, hloop, rfl⟩ := Option.map_eq_some_iff.1 h
    exact .maintained hloop rfl
  | runTask process outcome =>
    obtain ⟨loop, hloop, rfl⟩ := Option.map_eq_some_iff.1 h
    exact .worked hloop rfl
  | kill process => exact .killed (Option.some.inj h).symm

/-- No rows, no requests, and every process about to enter its loop. -/
def begin (clock : Time) : Cluster :=
  ⟨SerialRequests.start clock, [], [], fun _ => WorkerLoop.start, []⟩

end TaskQueue.WorkerCluster

import TaskQueue.ComfyUIInteractions
import TaskQueue.OllamaManager

/-!
# The tasks of a worker

`run_task` of `workers/local_worker.py`, with `handle_text_task` and the two render
functions of `workers/image_worker.py`, which call the supervisor alike. The main thread
is cut where it calls the supervisor, the Ollama manager or `forge2`; between any two such
steps the heartbeat thread may call `details`. What a task finds (memory, replies, its own
exceptions) is in the labels.
-/

namespace TaskQueue.WorkerTasks
open ComfyUI StateExceptions OllamaManager

variable {Json : Type}

/-- What `main` builds: the supervisor unless no visual type is configured or `MOCK_MODE` is
on, the Ollama manager if text is. -/
structure Setup where
  comfyui : Bool
  mock : Bool
  ollama : Option OllamaManager.Config

inductive Work (Json : Type)
  | text (payload : Payload Json)
  | visual

/-- Where the main thread is: what it does next, or what is in flight. -/
inductive Phase (Json : Type)
  | polling
  | checking (payload : Payload Json)
  | clearing (payload : Payload Json)
  | asking (payload : Payload Json)
  | chatting (c : Chatting)
  | unloading
  | measuring (again : Bool)
  | short
  | freeing
  | preparing
  | starting
  | rendering (on : Option ℕ)
  | blaming
  | finishing

/-- The main thread. `blamed` are the managed processes that a corrupt render ran on. -/
structure Main (Json : Type) where
  phase : Phase Json
  ollama : Manager
  blamed : List ℕ

/-- `requests` and `restarts` count the calls of `request_restart` and the restarts that
`ensure_running` carried out for them. -/
structure LocalWorker (Json : Type) where
  main : Main Json
  world : World
  requests : ℕ
  restarts : ℕ

/-- `details` is the heartbeat thread. `operate` is for other uses of the supervisor between
tasks; among them is `maybe_stop_idle`, whose exception would end the loop. -/
inductive Label (Json : Type)
  | details
  | operate (op : Op)
  | maybeUnloadIdle (now : Int)
  | claim (work : Work Json)
  | fails
  | readManaged
  | stop
  | ps (reply : PsReply)
  | chatted (now : Int)
  | unload
  | measure (shortfall : Bool)
  | markBusy
  | ensureRunning
  | renderEnds (corrupt : Bool)
  | requestRestart
  | markIdle

/-- The call of the supervisor that a step makes. -/
def Label.op : Label Json → Option Op
  | .details => some .details
  | .operate op => some op
  | .stop => some .stop
  | .markBusy => some .markBusy
  | .ensureRunning => some .ensureRunning
  | .requestRestart => some .requestRestart
  | .markIdle => some .markIdle
  | _ => none

/-- The running process that the supervisor manages. -/
def managedProcess (w : World) : Option Process := w.sup.proc.bind w.target

section Step
variable (env : ℕ → Answer) (setup : Setup)

def returns (w : World) (op : Op) : Bool :=
  match (runFrom (op.run env) { w with ending := none }).1 with
  | .ok _ => true
  | .error _ => false

/-- `supervisor is not None and supervisor.managed`. -/
def managed (w : World) : Bool := setup.comfyui && w.sup.proc.isSome

def firstPhase : Work Json → Phase Json
  | .text payload => .checking payload
  | .visual => .unloading

/-- What is left of a chat after its first request. -/
def ask (payload : Payload Json) (reply : PsReply) : Phase Json :=
  match setup.ollama with
  | none => .polling
  | some cfg => match beginChat cfg payload reply with
    | .ok (_, c) => .chatting c
    | .error _ => .polling

/-- The render starts if `ensure_running` returns, on what the supervisor then manages. -/
def startRender (w : World) : Phase Json :=
  if setup.comfyui then
    if returns env w .ensureRunning then
      .rendering ((managedProcess (perform env w .ensureRunning)).map Process.inst)
    else .finishing
  else .rendering none

/-- A step of the main thread, and what it leaves of it. -/
def mainStep (w : World) (m : Main Json) : Label Json → Option (Main Json)
  | .details => if setup.comfyui then some m else none
  | .operate op =>
    match m.phase with
    | .polling => if setup.comfyui && !replaces op then some m else none
    | _ => none
  | .maybeUnloadIdle now =>
    match m.phase with
    | .polling => match setup.ollama with
      | some cfg => some { m with ollama := (maybeUnloadIdle cfg now m.ollama).1 }
      | none => none
    | _ => none
  | .claim work =>
    match m.phase with
    | .polling => some { m with phase := firstPhase work }
    | _ => none
  | .fails =>
    match m.phase with
    | .checking _ | .asking _ | .unloading | .measuring _ | .short | .preparing =>
      some { m with phase := .polling }
    | .starting => some { m with phase := .finishing }
    | _ => none
  | .readManaged =>
    match m.phase with
    | .checking payload =>
      some { m with phase := if managed setup w then .clearing payload else .asking payload }
    | .short => some { m with phase := if managed setup w then .freeing else .polling }
    | _ => none
  | .stop =>
    match m.phase with
    | .clearing payload =>
      some { m with phase := if returns env w .stop then .asking payload else .polling }
    | .freeing => some { m with phase := if returns env w .stop then .measuring true else .polling }
    | _ => none
  | .ps reply =>
    match m.phase with
    | .asking payload => some { m with phase := ask setup payload reply }
    | _ => none
  | .chatted now =>
    match m.phase with
    | .chatting c => some { m with phase := .polling, ollama := finishChat c now m.ollama }
    | _ => none
  | .unload =>
    match m.phase with
    | .unloading => some { m with
        phase := if setup.mock then .polling else .measuring false
        ollama := if setup.ollama.isSome then (unload m.ollama).1 else m.ollama }
    | _ => none
  | .measure shortfall =>
    match m.phase with
    | .measuring again => some { m with
        phase := if shortfall then if again then .polling else .short else .preparing }
    | _ => none
  | .markBusy =>
    match m.phase with
    | .preparing => some { m with phase := .starting }
    | _ => none
  | .ensureRunning =>
    match m.phase with
    | .starting => some { m with phase := startRender env setup w }
    | _ => none
  | .renderEnds corrupt =>
    match m.phase with
    | .rendering on =>
      if corrupt && setup.comfyui then
        some { m with phase := .blaming, blamed := on.toList ++ m.blamed }
      else some { m with phase := .finishing }
    | _ => none
  | .requestRestart =>
    match m.phase with
    | .blaming => some { m with phase := .finishing }
    | _ => none
  | .markIdle =>
    match m.phase with
    | .finishing => some { m with phase := .polling }
    | _ => none

/-- `ensure_running` after its look: the pending restart is carried out now. -/
def carriesOut (w : World) : Op → Bool
  | .ensureRunning =>
    match runFrom (look env) { w with ending := none } with
    | (.ok _, looked) => looked.sup.restartPending && looked.sup.proc.isSome
    | (.error _, _) => false
  | _ => false

def isRequest : Op → Bool
  | .requestRestart => true
  | _ => false

/-- The supervisor's side of a step. -/
def LocalWorker.operate (s : LocalWorker Json) (op : Op) : LocalWorker Json :=
  { s with
    world := perform env s.world op
    requests := s.requests + (isRequest op).toNat
    restarts := s.restarts + (carriesOut env s.world op).toNat }

def LocalWorker.call (s : LocalWorker Json) : Option Op → LocalWorker Json
  | none => s
  | some op => if setup.comfyui then s.operate env op else s

def step (s : LocalWorker Json) (l : Label Json) : Option (LocalWorker Json) :=
  (mainStep env setup s.world s.main l).map fun m => { s.call env setup l.op with main := m }

end Step

section Steps
variable {env : ℕ → Answer} {setup : Setup} {s t : LocalWorker Json} {l : Label Json}

theorem returns_of_error {w v : World} {op : Op} {e : Exn}
    (h : runFrom (op.run env) { w with ending := none } = (.error e, v)) :
    returns env w op = false := by
  rw [returns, h]

theorem step_eq_some (h : step env setup s l = some t) :
    ∃ m, mainStep env setup s.world s.main l = some m ∧
      t = { s.call env setup l.op with main := m } := by
  obtain ⟨m, hm, ht⟩ := Option.map_eq_some_iff.1 h
  exact ⟨m, hm, ht.symm⟩

/-- Without a supervisor there is nothing to call. -/
theorem call_absent (hsetup : setup.comfyui = false) (op : Option Op) :
    s.call env setup op = s := by
  cases op with
  | none => rfl
  | some op => simp [LocalWorker.call, hsetup]

theorem call_present (hsetup : setup.comfyui = true) (op : Op) :
    s.call env setup (some op) = s.operate env op := by
  simp [LocalWorker.call, hsetup]

end Steps

/-- The worker has just started; other workers may have been there before. -/
structure Started (s : LocalWorker Json) : Prop where
  phase : s.main.phase = .polling
  owned : s.main.ollama.owned = none
  blamed : s.main.blamed = []
  sup : ∃ cfg now, s.world.sup = newSupervisor cfg now
  numbered : ∀ p ∈ s.world.processes, p.inst < s.world.nextInst
  seen : s.world.seen = []
  requests : s.requests = 0
  restarts : s.restarts = 0

end TaskQueue.WorkerTasks
